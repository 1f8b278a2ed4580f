import CCNxFileRepo.Foundations.JoinStore
import CCNxFileRepo.Repository.Cache
import CCNxFileRepo.Repository.SkewedTree
import Mathlib.Order.WithBot

/-!
# The repository as a growing store

What a repository directory is for: it remembers, for every object, how many bytes of its wire
format have reached the disk.  A save raises that number and a lookup answers with the bytes.
`Represents` ties the directory to this view.  As saves are joins, nothing that happens later can
take bytes away from an object, and a short write after a complete one does no harm.
-/

namespace CCNxFileRepo

open Foundations

namespace WriteOutcome

theorem stored_eq_take (outcome : WriteOutcome) (data : Bytes) :
    outcome.stored data = data.take (outcome.stored data).length := by
  cases outcome with
  | complete => simp [stored]
  | short count => simp [stored, List.take_eq_take_iff]

/-- A write is complete if and only if it stores as many bytes as it was given. -/
theorem stored_eq_iff (outcome : WriteOutcome) (data : Bytes) :
    outcome.stored data = data ↔ data.length ≤ (outcome.stored data).length := by
  constructor
  · intro h
    rw [h]
  · intro h
    rw [stored_eq_take, List.take_of_length_le h]

end WriteOutcome

/-- The names a directory can have entries under. -/
def IsEntryName (name : CString) : Prop :=
  name ≠ [] ∧ '/' ∉ name ∧ name ≠ ['.'] ∧ name ≠ ['.', '.']

theorem CCNxLibrary.isEntryName_toHexString (lib : CCNxLibrary) {digest : Bytes}
    (h : digest ≠ []) : IsEntryName (lib.toHexString digest) := by
  refine ⟨?_, ?_, ?_, ?_⟩
  · exact fun hnil ↦ h (lib.toHexString_injective hnil)
  · intro hslash
    exact absurd (lib.isAlphanum_of_mem_toHexString hslash) (by decide)
  · intro hdot
    exact absurd (lib.isAlphanum_of_mem_toHexString (hdot ▸ List.mem_cons_self ..)) (by decide)
  · intro hdots
    exact absurd (lib.isAlphanum_of_mem_toHexString (hdots ▸ List.mem_cons_self ..)) (by decide)

namespace CCNxFileRepoCache

variable (lib : CCNxLibrary)

/-- The repository directory exists and has no entries. -/
structure EmptyRepository (repo : CCNxFileRepoCache) (fs : FileSystem) : Prop where
  directory : fs (repo.joinPath []) = some .directory
  no_entries : ∀ name, IsEntryName name → fs (repo.joinPath name) = none

/-- A disk with nothing but the empty repository directory. -/
def freshDisk (repo : CCNxFileRepoCache) : FileSystem := fun path ↦
  if path = repo.joinPath [] then some .directory else none

def objectPath (repo : CCNxFileRepoCache) (object : CCNxMetaMessage) : CString :=
  repo.joinPath (lib.toHexString (lib.computeContentObjectHash object))

/-- How many bytes of an object's wire format are on the disk, `⊥` where there is no file. -/
abbrev Progress := CCNxMetaMessage → WithBot ℕ

/-- The file that holds the first bytes of an object's wire format. -/
def storedFile (object : CCNxMetaMessage) : WithBot ℕ → Option FileNode :=
  WithBot.recBotCoe none fun count ↦
    some (.regular ((lib.createWireFormatBuffer object).take count))

def wireLength (object : CCNxMetaMessage) : ℕ := (lib.createWireFormatBuffer object).length

/-- The directory holds, of each of `objects`, what `progress` says, and nothing else. -/
structure Represents (repo : CCNxFileRepoCache) (objects : Set CCNxMetaMessage) (fs : FileSystem)
    (progress : Progress) : Prop where
  directory : fs (repo.joinPath []) = some .directory
  files : ∀ object ∈ objects,
    fs (repo.objectPath lib object) = storedFile lib object (progress object)
  entries : ∀ name, IsEntryName name → fs (repo.joinPath name) ≠ none →
    ∃ object ∈ objects, name = lib.toHexString (lib.computeContentObjectHash object)

variable {lib} {repo : CCNxFileRepoCache} {objects : Set CCNxMetaMessage} {fs : FileSystem}
  {progress : Progress}

theorem joinPath_injective (repo : CCNxFileRepoCache) : Function.Injective repo.joinPath :=
  fun _ _ h ↦ List.append_cancel_left h

theorem isEntryName_hex (object : CCNxMetaMessage) :
    IsEntryName (lib.toHexString (lib.computeContentObjectHash object)) :=
  lib.isEntryName_toHexString (lib.contentObjectHash_ne_nil object)

theorem emptyRepository_freshDisk (repo : CCNxFileRepoCache) :
    EmptyRepository repo repo.freshDisk where
  directory := if_pos rfl
  no_entries _ hname := if_neg fun h ↦ hname.1 (joinPath_injective repo h)

theorem objectPath_inj {first second : CCNxMetaMessage}
    (h : repo.objectPath lib first = repo.objectPath lib second) :
    lib.computeContentObjectHash first = lib.computeContentObjectHash second :=
  lib.toHexString_injective (joinPath_injective repo h)

@[simp]
theorem storedFile_bot (object : CCNxMetaMessage) : storedFile lib object ⊥ = none := rfl

@[simp]
theorem storedFile_coe (object : CCNxMetaMessage) (count : ℕ) :
    storedFile lib object (WithBot.some count) =
      some (.regular ((lib.createWireFormatBuffer object).take count)) := rfl

theorem storedFile_ne_directory (object : CCNxMetaMessage) (count : WithBot ℕ) :
    storedFile lib object count ≠ some .directory := by
  cases count using WithBot.recBotCoe <;> simp

/-- An empty repository represents a store without bytes. -/
theorem EmptyRepository.represents (h : EmptyRepository repo fs) (objects : Set CCNxMetaMessage) :
    Represents lib repo objects fs fun _ ↦ ⊥ where
  directory := h.directory
  files object _ := by
    rw [storedFile_bot]
    exact h.no_entries _ (isEntryName_hex object)
  entries name hname hentry := absurd (h.no_entries name hname) hentry

/-- What a save does where no directory is in its way. -/
theorem saveToRepo_eq {object : CCNxMetaMessage}
    (h : fs (repo.objectPath lib object) ≠ some .directory) (outcome : WriteOutcome) :
    saveToRepo lib repo fs object outcome =
      .ok (lib.computeContentObjectHash object,
        Function.update fs (repo.objectPath lib object) (some (.regular
          (Overlay.overlay 0 (fs.contentsAt (repo.objectPath lib object)) 0
            (outcome.stored (lib.createWireFormatBuffer object)))))) := by
  unfold saveToRepo
  simp only [CCNxLibrary.reparse_eq]
  rw [← objectPath, FileSystem.createNewFile_guarded,
    FileSystem.openRandomAccess_regular (FileSystem.createNewFile_apply h)]
  simp only [FileSystem.write_createNewFile h]

/-- The bytes under the name of an object whose start is on the disk. -/
theorem contentsAt_storedFile {object : CCNxMetaMessage} {count : WithBot ℕ}
    (h : fs (repo.objectPath lib object) = storedFile lib object count) :
    fs.contentsAt (repo.objectPath lib object) =
      (lib.createWireFormatBuffer object).take (count.unbotD 0) := by
  cases count using WithBot.recBotCoe with
  | bot =>
      rw [storedFile_bot] at h
      rw [FileSystem.contentsAt_none h]
      simp
  | coe count =>
      rw [storedFile_coe] at h
      rw [FileSystem.contentsAt_regular h]
      simp

/-- A save over the start of its object leaves the longer of this start and what it stores. -/
theorem saveToRepo_storedFile {object : CCNxMetaMessage} {count : WithBot ℕ}
    (h : fs (repo.objectPath lib object) = storedFile lib object count) (outcome : WriteOutcome) :
    saveToRepo lib repo fs object outcome = .ok (lib.computeContentObjectHash object,
      Function.update fs (repo.objectPath lib object) (storedFile lib object (count ⊔
        WithBot.some (outcome.stored (lib.createWireFormatBuffer object)).length))) := by
  have hdirectory : fs (repo.objectPath lib object) ≠ some .directory :=
    h ▸ storedFile_ne_directory object count
  have hstored := outcome.stored_eq_take (lib.createWireFormatBuffer object)
  generalize (outcome.stored (lib.createWireFormatBuffer object)).length = bytes at hstored ⊢
  rw [saveToRepo_eq hdirectory, contentsAt_storedFile h, hstored, Overlay.overlay_take_take]
  cases count using WithBot.recBotCoe with
  | bot => simp
  | coe old => rw [← WithBot.coe_sup, storedFile_coe, WithBot.unbotD_coe]

/-- More bytes of one object raise its progress and leave every other one alone. -/
theorem Represents.raise (hfree : lib.CollisionFreeOn objects)
    (h : Represents lib repo objects fs progress) {object : CCNxMetaMessage}
    (hobject : object ∈ objects) (count : WithBot ℕ) :
    Represents lib repo objects (Function.update fs (repo.objectPath lib object)
      (storedFile lib object (progress object ⊔ count)))
      (Foundations.raise progress object count) where
  directory := by
    have hpath : repo.joinPath [] ≠ repo.objectPath lib object :=
      fun hpath ↦ (isEntryName_hex object).1 (joinPath_injective repo hpath).symm
    rw [Function.update_of_ne hpath]
    exact h.directory
  files other hother := by
    by_cases hsame : other = object
    · subst hsame
      rw [Function.update_self, raise_self]
    · have hpath : repo.objectPath lib other ≠ repo.objectPath lib object :=
        fun hpath ↦ hsame (hfree hother hobject (objectPath_inj hpath))
      rw [Function.update_of_ne hpath, raise_of_ne _ hsame]
      exact h.files other hother
  entries name hname hentry := by
    by_cases hpath : repo.joinPath name = repo.objectPath lib object
    · exact ⟨object, hobject, joinPath_injective repo hpath⟩
    · rw [Function.update_of_ne hpath] at hentry
      exact h.entries name hname hentry

/-- A save raises the progress of its object and leaves every other one alone. -/
theorem Represents.saveToRepo (hfree : lib.CollisionFreeOn objects)
    (h : Represents lib repo objects fs progress) {object : CCNxMetaMessage}
    (hobject : object ∈ objects) (outcome : WriteOutcome) :
    ∃ saved, CCNxFileRepoCache.saveToRepo lib repo fs object outcome =
        .ok (lib.computeContentObjectHash object, saved) ∧
      Represents lib repo objects saved (Foundations.raise progress object
        (WithBot.some (outcome.stored (lib.createWireFormatBuffer object)).length)) :=
  ⟨_, saveToRepo_storedFile (h.files object hobject) outcome, h.raise hfree hobject _⟩

variable (lib) in
/-- The bytes that a sequence of saves brings to the disk. -/
def savedEntries : List CCNxMetaMessage → (ℕ → WriteOutcome) → List (CCNxMetaMessage × WithBot ℕ)
  | [], _ => []
  | object :: later, outcomes =>
      (object, WithBot.some ((outcomes 0).stored (lib.createWireFormatBuffer object)).length) ::
        savedEntries later fun index ↦ outcomes (index + 1)

/-- The loop of saves raises the progress of one object after the other. -/
theorem Represents.saveAll (hfree : lib.CollisionFreeOn objects)
    (h : Represents lib repo objects fs progress) {messages : List CCNxMetaMessage}
    (hmessages : ∀ message ∈ messages, message ∈ objects) (outcomes : ℕ → WriteOutcome) :
    ∃ saved, CCNxFileRepoCache.saveAll lib repo fs messages outcomes = .ok saved ∧
      Represents lib repo objects saved
        (raiseAll progress (savedEntries lib messages outcomes)) := by
  induction messages generalizing fs progress outcomes with
  | nil => exact ⟨fs, rfl, h⟩
  | cons message messages ih =>
      obtain ⟨next, hsave, hnext⟩ :=
        h.saveToRepo hfree (hmessages message (List.mem_cons_self ..)) (outcomes 0)
      obtain ⟨saved, hsaved, hrepresents⟩ := ih hnext
        (fun later hlater ↦ hmessages later (List.mem_cons_of_mem _ hlater))
        (fun index ↦ outcomes (index + 1))
      refine ⟨saved, ?_, hrepresents⟩
      rw [CCNxFileRepoCache.saveAll, hsave]
      exact hsaved

theorem mem_savedEntries {messages : List CCNxMetaMessage} {outcomes : ℕ → WriteOutcome}
    {entry : CCNxMetaMessage × WithBot ℕ} :
    entry ∈ savedEntries lib messages outcomes ↔
      ∃ index, messages[index]? = some entry.1 ∧
        entry.2 = WithBot.some ((outcomes index).stored
          (lib.createWireFormatBuffer entry.1)).length := by
  induction messages generalizing outcomes with
  | nil => simp [savedEntries]
  | cons message messages ih =>
      rw [savedEntries, List.mem_cons, ih]
      constructor
      · rintro (rfl | ⟨index, hindex, hcount⟩)
        · exact ⟨0, rfl, rfl⟩
        · exact ⟨index + 1, hindex, hcount⟩
      · rintro ⟨index, hindex, hcount⟩
        cases index with
        | zero =>
            left
            obtain rfl : message = entry.1 := by simpa using hindex
            exact Prod.ext rfl hcount
        | succ index => exact Or.inr ⟨index, by simpa using hindex, hcount⟩

/-- A lookup of an object answers with the bytes that are on the disk. -/
theorem Represents.lookup (h : Represents lib repo objects fs progress)
    {object : CCNxMetaMessage} (hobject : object ∈ objects) :
    createWireEncodedMessageWithDigest lib repo fs (lib.computeContentObjectHash object) =
      .ok (WithBot.recBotCoe none
        (fun count ↦ some ((lib.createWireFormatBuffer object).take count)) (progress object)) := by
  have hfile := h.files object hobject
  unfold createWireEncodedMessageWithDigest
  rw [← objectPath]
  cases hprogress : progress object using WithBot.recBotCoe with
  | bot =>
      rw [hprogress, storedFile_bot] at hfile
      simp [FileSystem.fileExists, hfile]
  | coe count =>
      rw [hprogress, storedFile_coe] at hfile
      simp only [FileSystem.fileExists, hfile, Option.isSome_some, if_true,
        FileSystem.openRandomAccess_regular hfile, WithBot.recBotCoe_coe]
      simp [FileSystem.read, FileSystem.getFileSize, FileSystem.contentsAt_regular hfile]

/-- The path of the digest without bytes is the directory. -/
theorem Represents.lookup_nil (h : Represents lib repo objects fs progress) :
    createWireEncodedMessageWithDigest lib repo fs [] = .error .nullFileHandle := by
  simp [createWireEncodedMessageWithDigest, FileSystem.fileExists, FileSystem.openRandomAccess,
    h.directory]

/-- A lookup comes back for every digest with a byte. -/
theorem Represents.exists_lookup (h : Represents lib repo objects fs progress) {digest : Bytes}
    (hdigest : digest ≠ []) :
    ∃ found, createWireEncodedMessageWithDigest lib repo fs digest = .ok found := by
  by_cases hentry : fs (repo.joinPath (lib.toHexString digest)) = none
  · refine ⟨none, ?_⟩
    simp [createWireEncodedMessageWithDigest, FileSystem.fileExists, hentry]
  · obtain ⟨object, hobject, hhex⟩ :=
      h.entries _ (lib.isEntryName_toHexString hdigest) hentry
    rw [lib.toHexString_injective hhex]
    exact ⟨_, h.lookup hobject⟩

/-- A lookup that answers with bytes answers with what the disk has of one of the objects. -/
theorem Represents.exists_part_of_lookup (h : Represents lib repo objects fs progress)
    {digest chunk : Bytes}
    (hlookup : createWireEncodedMessageWithDigest lib repo fs digest = .ok (some chunk)) :
    ∃ object ∈ objects, ∃ count, lib.computeContentObjectHash object = digest ∧
      progress object = WithBot.some count ∧
      (lib.createWireFormatBuffer object).take count = chunk := by
  have hentry : fs (repo.joinPath (lib.toHexString digest)) ≠ none := by
    intro hnone
    simp [createWireEncodedMessageWithDigest, FileSystem.fileExists, hnone] at hlookup
  have hname : IsEntryName (lib.toHexString digest) := by
    apply lib.isEntryName_toHexString
    rintro rfl
    simp [h.lookup_nil] at hlookup
  obtain ⟨object, hobject, hhex⟩ := h.entries _ hname hentry
  have hdigest : lib.computeContentObjectHash object = digest :=
    (lib.toHexString_injective hhex).symm
  rw [← hdigest, h.lookup hobject] at hlookup
  cases hprogress : progress object using WithBot.recBotCoe with
  | bot => simp [hprogress] at hlookup
  | coe count =>
      exact ⟨object, hobject, count, hdigest, hprogress, by simpa [hprogress] using hlookup⟩

/-- A lookup answers with the complete wire format if and only if all of it is on the disk. -/
theorem Represents.lookup_eq_complete_iff (h : Represents lib repo objects fs progress)
    {object : CCNxMetaMessage} (hobject : object ∈ objects) :
    createWireEncodedMessageWithDigest lib repo fs (lib.computeContentObjectHash object) =
        .ok (some (lib.createWireFormatBuffer object)) ↔
      WithBot.some (wireLength lib object) ≤ progress object := by
  rw [h.lookup hobject]
  cases progress object using WithBot.recBotCoe with
  | bot => simp
  | coe count =>
      simp only [WithBot.recBotCoe_coe, Except.ok.injEq, Option.some.injEq, WithBot.coe_le_coe,
        wireLength]
      exact List.take_eq_self_iff _

end CCNxFileRepoCache

end CCNxFileRepo
