import CCNxFileRepo.Parc.Buffer

/-!
# `PARCFile` and `PARCRandomAccessFile`

The file system is a map from path strings to nodes.  Creating a file leaves an existing one
alone, opening does not truncate, and a write replaces the bytes from the sought offset and
extends the file when needed.  A write may store only a prefix of its bytes; the library then
reports the shorter count and the caller decides what to make of it.
-/

namespace CCNxFileRepo

open Foundations.Overlay

/-- The characters of a C string. -/
abbrev CString := List Char

inductive FileNode where
  | regular (contents : Bytes)
  | directory
  deriving DecidableEq, Repr

abbrev FileSystem := CString → Option FileNode

/-- How much of its data a write stores. -/
inductive WriteOutcome where
  | complete
  | short (count : ℕ)
  deriving DecidableEq, Repr

/-- The part of the data that reaches the file. -/
def WriteOutcome.stored : WriteOutcome → Bytes → Bytes
  | complete, data => data
  | short count, data => data.take count

def noFailures : ℕ → WriteOutcome := fun _ ↦ .complete

structure PARCRandomAccessFile where
  path : CString
  position : ℕ
  deriving DecidableEq, Repr

namespace FileSystem

/-- `parcFile_Exists`, true for directories too. -/
def fileExists (fs : FileSystem) (path : CString) : Bool := (fs path).isSome

/-- The bytes of a regular file; nothing for any other path. -/
def contentsAt (fs : FileSystem) (path : CString) : Bytes :=
  match fs path with
  | some (.regular contents) => contents
  | _ => []

/-- `parcFile_CreateNewFile`, which leaves an existing file as it is. -/
def createNewFile (fs : FileSystem) (path : CString) : FileSystem :=
  if fs.fileExists path then fs else Function.update fs path (some (.regular []))

def getFileSize (fs : FileSystem) (path : CString) : ℕ := (fs.contentsAt path).length

/-- `parcRandomAccessFile_Open`: a handle for reading and writing, `NULL` where there is no
regular file. -/
def openRandomAccess (fs : FileSystem) (path : CString) : Option PARCRandomAccessFile :=
  match fs path with
  | some (.regular _) => some { path := path, position := 0 }
  | _ => none

/-- `parcRandomAccessFile_Write` of the bytes left in a buffer. -/
def write (fs : FileSystem) (handle : PARCRandomAccessFile) (outcome : WriteOutcome)
    (data : Bytes) : FileSystem :=
  Function.update fs handle.path
    (some (.regular (overlay 0 (fs.contentsAt handle.path) handle.position (outcome.stored data))))

/-- `parcRandomAccessFile_Read` into a buffer with room for `count` bytes. -/
def read (fs : FileSystem) (handle : PARCRandomAccessFile) (count : ℕ) : Bytes :=
  ((fs.contentsAt handle.path).drop handle.position).take count

end FileSystem

/-- `parcRandomAccessFile_Seek` from the start of the file. -/
def PARCRandomAccessFile.seek (handle : PARCRandomAccessFile) (offset : ℕ) :
    PARCRandomAccessFile :=
  { handle with position := offset }

namespace FileSystem

theorem contentsAt_regular {fs : FileSystem} {path : CString} {contents : Bytes}
    (h : fs path = some (.regular contents)) : fs.contentsAt path = contents := by
  simp [contentsAt, h]

theorem contentsAt_none {fs : FileSystem} {path : CString} (h : fs path = none) :
    fs.contentsAt path = [] := by
  simp [contentsAt, h]

theorem ne_directory_of_none {fs : FileSystem} {path : CString} (h : fs path = none) :
    fs path ≠ some .directory := by
  simp [h]

theorem update_regular_ne_directory (fs : FileSystem) (path : CString) (contents : Bytes) :
    Function.update fs path (some (.regular contents)) path ≠ some .directory := by
  simp

/-- Creating a file where no directory stands writes the bytes back that were there. -/
theorem createNewFile_eq_update {fs : FileSystem} {path : CString}
    (h : fs path ≠ some .directory) :
    fs.createNewFile path = Function.update fs path (some (.regular (fs.contentsAt path))) := by
  cases hnode : fs path with
  | none => simp [createNewFile, fileExists, contentsAt, hnode]
  | some node =>
      cases node with
      | regular contents =>
          rw [contentsAt_regular hnode, ← hnode, Function.update_eq_self]
          simp [createNewFile, fileExists, hnode]
      | directory => exact absurd hnode h

theorem createNewFile_apply {fs : FileSystem} {path : CString}
    (h : fs path ≠ some .directory) :
    fs.createNewFile path path = some (.regular (fs.contentsAt path)) := by
  rw [createNewFile_eq_update h, Function.update_self]

theorem createNewFile_apply_of_ne (fs : FileSystem) {path other : CString} (h : other ≠ path) :
    fs.createNewFile path other = fs other := by
  unfold createNewFile
  split
  · rfl
  · exact Function.update_of_ne h _ _

theorem openRandomAccess_regular {fs : FileSystem} {path : CString} {contents : Bytes}
    (h : fs path = some (.regular contents)) :
    fs.openRandomAccess path = some { path := path, position := 0 } := by
  simp [openRandomAccess, h]

theorem path_of_openRandomAccess {fs : FileSystem} {path : CString}
    {handle : PARCRandomAccessFile} (h : fs.openRandomAccess path = some handle) :
    handle.path = path := by
  unfold openRandomAccess at h
  split at h
  · cases h
    rfl
  · cases h

theorem createNewFile_of_exists {fs : FileSystem} {path : CString}
    (h : fs.fileExists path = true) : fs.createNewFile path = fs := by
  simp [createNewFile, h]

/-- The test before the creation makes no difference. -/
theorem createNewFile_guarded (fs : FileSystem) (path : CString) :
    (if fs.fileExists path = true then fs else fs.createNewFile path) =
      fs.createNewFile path := by
  split
  · rename_i hexists
    rw [createNewFile_of_exists hexists]
  · rfl

/-- The pattern of both writers of the repository: create the file unless it is there, open it,
seek and write.  Only the file itself changes, by an overlay. -/
theorem write_createNewFile {fs : FileSystem} {path : CString} (h : fs path ≠ some .directory)
    (offset : ℕ) (outcome : WriteOutcome) (data : Bytes) :
    (fs.createNewFile path).write { path := path, position := offset } outcome data =
      Function.update fs path
        (some (.regular (overlay 0 (fs.contentsAt path) offset (outcome.stored data)))) := by
  have hcontents : (fs.createNewFile path).contentsAt path = fs.contentsAt path :=
    contentsAt_regular (createNewFile_apply h)
  funext other
  by_cases hother : other = path
  · subst hother
    simp [write, hcontents]
  · simp [write, Function.update_of_ne hother, createNewFile_apply_of_ne fs hother]

end FileSystem

end CCNxFileRepo
