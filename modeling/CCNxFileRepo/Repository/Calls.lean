import CCNxFileRepo.Foundations.Transition
import CCNxFileRepo.Repository.Commutation

/-!
# Saves and lookups call by call

Nothing locks the repository directory.  A save tests for its file, creates it when the test found
nothing, opens it, writes to it and closes it; a lookup tests, asks for the size, opens, reads and
closes.  Other processes can do anything between two of these calls, and a long write reaches the
file piece by piece.

In a directory that holds starts of objects no call of a save takes bytes away, as long as the
creation leaves a file alone that has appeared since the test.  So what a save or a lookup has found
between two calls stays true, whatever other saves do.
-/

namespace CCNxFileRepo

open Foundations

/-- `parcFile_CreateNewFile` for a file that may have appeared since the test for it; what it does
to such a file is not said, so `empties` does. -/
def FileSystem.createRaced (fs : FileSystem) (path : CString) (empties : Bool) : FileSystem :=
  if empties = true ∧ fs path ≠ some .directory then
    Function.update fs path (some (.regular []))
  else fs.createNewFile path

/-- Where a save stands between two calls. -/
inductive SavePhase where
  | testing
  | creating
  | opening
  /-- with these bytes still to be written -/
  | writing (raf : PARCRandomAccessFile) (left : Bytes)
  | closed
  | stopped (stop : Stop)
  deriving DecidableEq, Repr

inductive SaveCall where
  | test
  | create (empties : Bool)
  | openFile
  /-- the next `count` bytes of the write reach the file -/
  | write (count : ℕ)
  | close
  deriving DecidableEq, Repr

inductive LookupPhase where
  | testing
  | sizing
  | opening (fileSize : ℕ)
  /-- with these bytes read -/
  | reading (fhandle : PARCRandomAccessFile) (fileSize : ℕ) (result : Bytes)
  | answered (answer : Option Bytes)
  | stopped (stop : Stop)
  deriving DecidableEq, Repr

inductive LookupCall where
  | test
  | size
  | openFile
  /-- up to `count` bytes are read -/
  | read (count : ℕ)
  | close
  deriving DecidableEq, Repr

namespace CCNxFileRepoCache

variable (lib : CCNxLibrary)

/-- One call of `_ccnxFileRepoCache_SaveToRepo`, where the save stands before it. -/
def callSave (repo : CCNxFileRepoCache) (message : CCNxMetaMessage) (outcome : WriteOutcome) :
    SavePhase × FileSystem → SaveCall → Option (SavePhase × FileSystem)
  | (.testing, fs), .test =>
      some (if fs.fileExists (repo.objectPath lib (lib.reparse message)) then .opening
        else .creating, fs)
  | (.creating, fs), .create empties =>
      some (.opening, fs.createRaced (repo.objectPath lib (lib.reparse message)) empties)
  | (.opening, fs), .openFile =>
      match fs.openRandomAccess (repo.objectPath lib (lib.reparse message)) with
      | none => some (.stopped .nullFileHandle, fs)
      | some raf => some (.writing raf (outcome.stored (lib.createWireFormatBuffer message)), fs)
  | (.writing raf left, fs), .write count =>
      some (.writing (raf.seek (raf.position + (left.take count).length)) (left.drop count),
        fs.write raf .complete (left.take count))
  | (.writing _ [], fs), .close => some (.closed, fs)
  | _, _ => none

/-- One call of `ccnxFileRepoCache_CreateWireEncodedMessageWithDigest`.  The read ends when the
buffer is full or the file is at its end. -/
def callLookup (repo : CCNxFileRepoCache) (digest : Bytes) (fs : FileSystem) :
    LookupPhase → LookupCall → Option LookupPhase
  | .testing, .test =>
      some (if fs.fileExists (repo.joinPath (lib.toHexString digest)) then .sizing
        else .answered none)
  | .sizing, .size => some (.opening (fs.getFileSize (repo.joinPath (lib.toHexString digest))))
  | .opening fileSize, .openFile =>
      match fs.openRandomAccess (repo.joinPath (lib.toHexString digest)) with
      | none => some (.stopped .nullFileHandle)
      | some fhandle => some (.reading fhandle fileSize [])
  | .reading fhandle fileSize result, .read count =>
      let bytes := fs.read fhandle (min count (fileSize - result.length))
      some (.reading (fhandle.seek (fhandle.position + bytes.length)) fileSize (result ++ bytes))
  | .reading fhandle fileSize result, .close =>
      if result.length = fileSize ∨ fs.read fhandle 1 = [] then some (.answered (some result))
      else none
  | _, _ => none

/-! ## Saves -/

/-- Where a save of `object` stands, in terms of how many bytes of the object are on the disk. -/
inductive SaveStands (repo : CCNxFileRepoCache) (object : CCNxMetaMessage)
    (outcome : WriteOutcome) : SavePhase → WithBot ℕ → Prop
  | testing {count : WithBot ℕ} : SaveStands repo object outcome .testing count
  | creating {count : WithBot ℕ} : SaveStands repo object outcome .creating count
  | opening {count : WithBot ℕ} (hcount : WithBot.some 0 ≤ count) :
      SaveStands repo object outcome .opening count
  | writing {position : ℕ} {count : WithBot ℕ}
      (hposition : position ≤ (outcome.stored (lib.createWireFormatBuffer object)).length)
      (hcount : WithBot.some position ≤ count) :
      SaveStands repo object outcome (.writing ⟨repo.objectPath lib object, position⟩
        ((outcome.stored (lib.createWireFormatBuffer object)).drop position)) count
  | closed {count : WithBot ℕ}
      (hcount : WithBot.some (outcome.stored (lib.createWireFormatBuffer object)).length ≤ count) :
      SaveStands repo object outcome .closed count

variable {lib} {repo : CCNxFileRepoCache} {objects : Set CCNxMetaMessage} {fs next : FileSystem}
  {progress reached : Progress} {object : CCNxMetaMessage} {outcome : WriteOutcome}
  {phase after : SavePhase} {call : SaveCall}

theorem SaveStands.mono {count more : WithBot ℕ}
    (h : SaveStands lib repo object outcome phase count) (hle : count ≤ more) :
    SaveStands lib repo object outcome phase more := by
  cases h with
  | testing => exact .testing
  | creating => exact .creating
  | opening hcount => exact .opening (hcount.trans hle)
  | writing hposition hcount => exact .writing hposition (hcount.trans hle)
  | closed hcount => exact .closed (hcount.trans hle)

/-- A piece of a write is a piece of the object. -/
theorem take_drop_stored (outcome : WriteOutcome) (data : Bytes) (position count : ℕ) :
    ((outcome.stored data).drop position).take count =
      (data.drop position).take
        (((outcome.stored data).drop position).take count).length := by
  have hstored := outcome.stored_eq_take data
  generalize (outcome.stored data).length = bytes at hstored
  rw [hstored, List.drop_take, List.take_take, List.take_eq_take_iff, List.length_take]
  omega

theorem SaveStands.write {position : ℕ} {count : WithBot ℕ}
    (hposition : position ≤ (outcome.stored (lib.createWireFormatBuffer object)).length)
    (size : ℕ)
    (hcount : WithBot.some (position +
      (((outcome.stored (lib.createWireFormatBuffer object)).drop position).take size).length) ≤
        count) :
    SaveStands lib repo object outcome (.writing ⟨repo.objectPath lib object, position +
        (((outcome.stored (lib.createWireFormatBuffer object)).drop position).take size).length⟩
      (((outcome.stored (lib.createWireFormatBuffer object)).drop position).drop size)) count := by
  have hdrop : ((outcome.stored (lib.createWireFormatBuffer object)).drop position).drop size =
      (outcome.stored (lib.createWireFormatBuffer object)).drop (position +
        (((outcome.stored (lib.createWireFormatBuffer object)).drop position).take
          size).length) := by
    rw [List.drop_drop, List.drop_eq_drop_iff, List.length_take, List.length_drop]
    omega
  rw [hdrop]
  refine .writing ?_ hcount
  rw [List.length_take, List.length_drop]
  omega

/-- What the disk holds after the first `count` bytes of an object have reached it. -/
theorem Represents.advance (hfree : lib.CollisionFreeOn objects)
    (h : Represents lib repo objects fs progress) (hobject : object ∈ objects) {count bound : ℕ}
    (hbound : count ≤ bound) :
    ∃ reached, Represents lib repo objects (Function.update fs (repo.objectPath lib object)
        (storedFile lib object (progress object ⊔ WithBot.some count))) reached ∧
      progress ≤ reached ∧ WithBot.some count ≤ reached object ∧
      ∀ other, reached other = progress other ∨
        other = object ∧ reached other ≤ WithBot.some bound := by
  refine ⟨_, h.raise hfree hobject _, le_raise _ _ _, ?_, fun other ↦ ?_⟩
  · rw [raise_self]
    exact le_sup_right
  · by_cases hother : other = object
    · subst hother
      rw [raise_self]
      rcases le_total (progress other) (WithBot.some count) with hle | hle
      · rw [sup_eq_right.mpr hle]
        exact Or.inr ⟨rfl, WithBot.coe_le_coe.mpr hbound⟩
      · exact Or.inl (sup_eq_left.mpr hle)
    · exact Or.inl (raise_of_ne _ hother _)

/-- Creating the file of an object brings none of its bytes to the disk and takes none away. -/
theorem Represents.createNewFile (h : Represents lib repo objects fs progress)
    (hobject : object ∈ objects) :
    fs.createNewFile (repo.objectPath lib object) =
      Function.update fs (repo.objectPath lib object)
        (storedFile lib object (progress object ⊔ WithBot.some 0)) := by
  have hfile := h.files object hobject
  rw [FileSystem.createNewFile_eq_update (hfile ▸ storedFile_ne_directory object _),
    contentsAt_storedFile hfile]
  cases progress object using WithBot.recBotCoe with
  | bot => rfl
  | coe count => rw [← WithBot.coe_sup, storedFile_coe, WithBot.unbotD_coe, Nat.max_zero]

theorem Represents.exists_regular (h : Represents lib repo objects fs progress)
    (hobject : object ∈ objects) {count : ℕ} (hcount : WithBot.some count ≤ progress object) :
    ∃ reach, count ≤ reach ∧ progress object = WithBot.some reach ∧
      fs (repo.objectPath lib object) =
        some (.regular ((lib.createWireFormatBuffer object).take reach)) := by
  obtain ⟨reach, hreach, hle⟩ := WithBot.coe_le_iff.mp hcount
  refine ⟨reach, hle, hreach, ?_⟩
  rw [h.files object hobject, hreach]
  rfl

/-- A piece that is written at its place, into a start of the object that reaches there. -/
theorem Represents.writePiece (h : Represents lib repo objects fs progress)
    (hobject : object ∈ objects) {position size : ℕ}
    (hposition : position ≤ wireLength lib object)
    (hcount : WithBot.some position ≤ progress object) :
    fs.write ⟨repo.objectPath lib object, position⟩ .complete
        (((lib.createWireFormatBuffer object).drop position).take size) =
      Function.update fs (repo.objectPath lib object)
        (storedFile lib object (progress object ⊔ WithBot.some (position + size))) := by
  obtain ⟨reach, hle, hreach, hfile⟩ := h.exists_regular hobject hcount
  rw [FileSystem.write, FileSystem.contentsAt_regular hfile, WriteOutcome.stored,
    Overlay.overlay_take_drop 0 hposition hle, hreach, ← WithBot.coe_sup, storedFile_coe]

theorem Represents.openRandomAccess (h : Represents lib repo objects fs progress)
    (hobject : object ∈ objects) (hcount : WithBot.some 0 ≤ progress object) :
    fs.openRandomAccess (repo.objectPath lib object) =
      some ⟨repo.objectPath lib object, 0⟩ := by
  obtain ⟨reach, -, -, hfile⟩ := h.exists_regular hobject hcount
  exact FileSystem.openRandomAccess_regular hfile

theorem Represents.fileExists_iff (h : Represents lib repo objects fs progress)
    (hobject : object ∈ objects) :
    fs.fileExists (repo.objectPath lib object) = true ↔ WithBot.some 0 ≤ progress object := by
  rw [FileSystem.fileExists, h.files object hobject]
  cases progress object using WithBot.recBotCoe with
  | bot => simp
  | coe count => simp

/-- A file is closed when the write has come to its end. -/
theorem callSave_close_iff {raf : PARCRandomAccessFile} {left : Bytes} :
    CCNxFileRepoCache.callSave lib repo object outcome (.writing raf left, fs) .close =
        some (after, next) ↔
      left = [] ∧ .closed = after ∧ fs = next := by
  cases left <;> simp [CCNxFileRepoCache.callSave]

/-- A save is not where it began any more after a call. -/
theorem callSave_ne_testing
    (h : CCNxFileRepoCache.callSave lib repo object outcome (phase, fs) call =
      some (after, next)) : after ≠ .testing := by
  rintro rfl
  cases phase with
  | testing =>
      cases call with
      | test =>
          simp only [CCNxFileRepoCache.callSave, Option.some.injEq, Prod.mk.injEq] at h
          have hphase := h.1
          split at hphase <;> cases hphase
      | _ => cases h
  | opening =>
      cases call with
      | openFile =>
          simp only [CCNxFileRepoCache.callSave] at h
          cases hopen : fs.openRandomAccess (repo.objectPath lib object) <;> simp [hopen] at h
      | _ => cases h
  | writing raf left =>
      cases call with
      | close => cases (callSave_close_iff.mp h).2.1
      | _ => cases h
  | _ => cases call <;> cases h

/-- What a call of a save does: it brings bytes of its object to the disk, no more than it is to
store, and changes nothing else. -/
theorem Represents.callSave (hfree : lib.CollisionFreeOn objects)
    (h : Represents lib repo objects fs progress) (hobject : object ∈ objects)
    (hstands : SaveStands lib repo object outcome phase (progress object))
    (hkeeps : call ≠ .create true)
    (hcall : CCNxFileRepoCache.callSave lib repo object outcome (phase, fs) call =
      some (after, next)) :
    (∃ reached, Represents lib repo objects next reached ∧ progress ≤ reached ∧
        (∀ other, reached other = progress other ∨ other = object ∧
          reached other ≤
            WithBot.some (outcome.stored (lib.createWireFormatBuffer object)).length) ∧
        SaveStands lib repo object outcome after (reached object)) ∧
      ∀ path, path ≠ repo.objectPath lib object → next path = fs path := by
  have hsame (hafter : SaveStands lib repo object outcome after (progress object)) :
      ∃ reached, Represents lib repo objects fs reached ∧ progress ≤ reached ∧
        (∀ other, reached other = progress other ∨ other = object ∧
          reached other ≤
            WithBot.some (outcome.stored (lib.createWireFormatBuffer object)).length) ∧
        SaveStands lib repo object outcome after (reached object) :=
    ⟨progress, h, le_rfl, fun _ ↦ Or.inl rfl, hafter⟩
  cases hstands with
  | testing =>
      cases call with
      | test =>
          simp only [CCNxFileRepoCache.callSave, CCNxLibrary.reparse_eq, Option.some.injEq,
            Prod.mk.injEq] at hcall
          obtain ⟨rfl, rfl⟩ := hcall
          refine ⟨hsame ?_, fun _ _ ↦ rfl⟩
          split
          · rename_i hexists
            exact .opening ((h.fileExists_iff hobject).mp hexists)
          · exact .creating
      | _ => cases hcall
  | creating =>
      cases call with
      | create empties =>
          simp only [CCNxFileRepoCache.callSave, CCNxLibrary.reparse_eq, Option.some.injEq,
            Prod.mk.injEq] at hcall
          obtain ⟨rfl, rfl⟩ := hcall
          have hfalse : ¬ (empties = true ∧ fs (repo.objectPath lib object) ≠ some .directory) :=
            fun hempties ↦ hkeeps (hempties.1 ▸ rfl)
          rw [FileSystem.createRaced, if_neg hfalse, h.createNewFile hobject]
          obtain ⟨reached, hreached, hle, hcount, hother⟩ :=
            h.advance hfree hobject (Nat.zero_le _)
          exact ⟨⟨reached, hreached, hle, hother, .opening hcount⟩,
            fun path hpath ↦ Function.update_of_ne hpath _ _⟩
      | _ => cases hcall
  | opening hcount =>
      cases call with
      | openFile =>
          simp only [CCNxFileRepoCache.callSave, CCNxLibrary.reparse_eq,
            h.openRandomAccess hobject hcount, Option.some.injEq, Prod.mk.injEq] at hcall
          obtain ⟨rfl, rfl⟩ := hcall
          exact ⟨hsame (.writing (Nat.zero_le _) hcount), fun _ _ ↦ rfl⟩
      | _ => cases hcall
  | @writing position _ hposition hcount =>
      cases call with
      | write size =>
          simp only [CCNxFileRepoCache.callSave, Option.some.injEq, Prod.mk.injEq] at hcall
          obtain ⟨rfl, rfl⟩ := hcall
          have hlength := congrArg List.length
            (outcome.stored_eq_take (lib.createWireFormatBuffer object))
          rw [List.length_take] at hlength
          have hwire : position ≤ wireLength lib object := by
            rw [wireLength]
            omega
          have hreach : position + (((outcome.stored (lib.createWireFormatBuffer object)).drop
              position).take size).length ≤
                (outcome.stored (lib.createWireFormatBuffer object)).length := by
            rw [List.length_take, List.length_drop]
            omega
          have hwrite := (congrArg _ (take_drop_stored outcome _ position size)).trans
            (h.writePiece hobject hwire hcount)
          rw [hwrite]
          obtain ⟨reached, hreached, hle, hmore, hother⟩ := h.advance hfree hobject hreach
          exact ⟨⟨reached, hreached, hle, hother, .write hposition size hmore⟩,
            fun path hpath ↦ Function.update_of_ne hpath _ _⟩
      | close =>
          obtain ⟨hleft, rfl, rfl⟩ := callSave_close_iff.mp hcall
          refine ⟨hsame (.closed ?_), fun _ _ ↦ rfl⟩
          exact (WithBot.coe_le_coe.mpr (List.drop_eq_nil_iff.mp hleft)).trans hcount
      | _ => cases hcall
  | closed hcount => cases call <;> cases hcall

/-! ## Lookups -/

variable (lib) in
/-- A lookup knows the size of the file; `Answers` tells which answers are right. -/
structure Sized (objects : Set CCNxMetaMessage) (digest : Bytes) (progress : Progress)
    (Answers : Option Bytes → Prop) (object : CCNxMetaMessage) (fileSize : ℕ) : Prop where
  mem : object ∈ objects
  hash : lib.computeContentObjectHash object = digest
  size_le : fileSize ≤ wireLength lib object
  count : WithBot.some fileSize ≤ progress object
  right : Answers (some ((lib.createWireFormatBuffer object).take fileSize))

variable (lib) in
inductive LookupStands (repo : CCNxFileRepoCache) (objects : Set CCNxMetaMessage)
    (digest : Bytes) (progress : Progress) (Answers : Option Bytes → Prop) : LookupPhase → Prop
  | testing : LookupStands repo objects digest progress Answers .testing
  | sizing {object : CCNxMetaMessage} (hobject : object ∈ objects)
      (hdigest : lib.computeContentObjectHash object = digest)
      (hcount : WithBot.some 0 ≤ progress object) :
      LookupStands repo objects digest progress Answers .sizing
  | opening {object : CCNxMetaMessage} {fileSize : ℕ}
      (hsized : Sized lib objects digest progress Answers object fileSize) :
      LookupStands repo objects digest progress Answers (.opening fileSize)
  | reading {object : CCNxMetaMessage} {fileSize position : ℕ}
      (hsized : Sized lib objects digest progress Answers object fileSize)
      (hposition : position ≤ fileSize) :
      LookupStands repo objects digest progress Answers
        (.reading ⟨repo.objectPath lib object, position⟩ fileSize
          ((lib.createWireFormatBuffer object).take position))
  | answered {answer : Option Bytes} (hanswer : Answers answer) :
      LookupStands repo objects digest progress Answers (.answered answer)

variable {digest : Bytes} {Answers Answers' : Option Bytes → Prop} {found later : LookupPhase}
  {ask : LookupCall}

theorem LookupStands.mono (h : LookupStands lib repo objects digest progress Answers found)
    (hle : progress ≤ reached) (hanswers : ∀ answer, Answers answer → Answers' answer) :
    LookupStands lib repo objects digest reached Answers' found := by
  have hsized {object : CCNxMetaMessage} {fileSize : ℕ}
      (hold : Sized lib objects digest progress Answers object fileSize) :
      Sized lib objects digest reached Answers' object fileSize :=
    ⟨hold.mem, hold.hash, hold.size_le, hold.count.trans (hle object), hanswers _ hold.right⟩
  cases h with
  | testing => exact .testing
  | sizing hobject hdigest hcount => exact .sizing hobject hdigest (hcount.trans (hle _))
  | opening hold => exact .opening (hsized hold)
  | reading hold hposition => exact .reading (hsized hold) hposition
  | answered hanswer => exact .answered (hanswers _ hanswer)

/-- The size of the file of an object is that of what a lookup would answer now. -/
theorem Represents.sized (h : Represents lib repo objects fs progress) (hobject : object ∈ objects)
    (hcount : WithBot.some 0 ≤ progress object)
    (hnow : ∀ answer, createWireEncodedMessageWithDigest lib repo fs
      (lib.computeContentObjectHash object) = .ok answer → Answers answer) :
    Sized lib objects (lib.computeContentObjectHash object) progress Answers object
      (fs.getFileSize (repo.objectPath lib object)) := by
  obtain ⟨reach, -, hreach, hfile⟩ := h.exists_regular hobject hcount
  rw [FileSystem.getFileSize, FileSystem.contentsAt_regular hfile, List.length_take]
  refine ⟨hobject, rfl, Nat.min_le_right _ _, ?_, hnow _ ?_⟩
  · rw [hreach]
    exact WithBot.coe_le_coe.mpr (Nat.min_le_left _ _)
  · rw [h.lookup hobject, hreach, WithBot.recBotCoe_coe, ← List.take_eq_take_min]

/-- The part of the object that a read within the size of the file brings. -/
theorem Represents.read (h : Represents lib repo objects fs progress) {fileSize position count : ℕ}
    (hsized : Sized lib objects digest progress Answers object fileSize)
    (hfits : position + count ≤ fileSize) :
    fs.read ⟨repo.objectPath lib object, position⟩ count =
      ((lib.createWireFormatBuffer object).drop position).take count ∧
    (((lib.createWireFormatBuffer object).drop position).take count).length = count := by
  obtain ⟨reach, hle, -, hfile⟩ := h.exists_regular hsized.mem hsized.count
  have hsize := hsized.size_le
  rw [wireLength] at hsize
  constructor
  · rw [FileSystem.read, FileSystem.contentsAt_regular hfile]
    change (((lib.createWireFormatBuffer object).take reach).drop position).take count = _
    rw [List.drop_take, List.take_take, Nat.min_eq_left (by omega)]
  · rw [List.length_take, List.length_drop]
    omega

/-- A call of a lookup leads on to an answer that was right at some moment, or is right now. -/
theorem Represents.callLookup (h : Represents lib repo objects fs progress)
    (hdigest : digest ≠ [])
    (hstands : LookupStands lib repo objects digest progress Answers found)
    (hnow : ∀ answer, createWireEncodedMessageWithDigest lib repo fs digest = .ok answer →
      Answers answer)
    (hcall : CCNxFileRepoCache.callLookup lib repo digest fs found ask = some later) :
    LookupStands lib repo objects digest progress Answers later := by
  cases hstands with
  | testing =>
      cases ask with
      | test =>
          simp only [CCNxFileRepoCache.callLookup, Option.some.injEq] at hcall
          subst hcall
          split
          · rename_i hexists
            obtain ⟨object, hobject, hhex⟩ := h.entries _ (lib.isEntryName_toHexString hdigest)
              (Option.isSome_iff_ne_none.mp hexists)
            rw [hhex, ← objectPath] at hexists
            exact .sizing hobject (lib.toHexString_injective hhex).symm
              ((h.fileExists_iff hobject).mp hexists)
          · rename_i hexists
            apply LookupStands.answered
            apply hnow
            simp only [createWireEncodedMessageWithDigest, if_neg hexists]
      | _ => cases hcall
  | @sizing object hobject hhash hcount =>
      subst hhash
      cases ask with
      | size =>
          simp only [CCNxFileRepoCache.callLookup, Option.some.injEq] at hcall
          subst hcall
          exact .opening (h.sized hobject hcount hnow)
      | _ => cases hcall
  | @opening object fileSize hsized =>
      cases ask with
      | openFile =>
          have hopen := h.openRandomAccess hsized.mem
            ((WithBot.coe_le_coe.mpr (Nat.zero_le _)).trans hsized.count)
          rw [objectPath, hsized.hash] at hopen
          simp only [CCNxFileRepoCache.callLookup, hopen, Option.some.injEq] at hcall
          subst hcall
          have hreading : LookupStands lib repo objects digest progress Answers
              (.reading ⟨repo.objectPath lib object, 0⟩ fileSize []) :=
            .reading hsized (Nat.zero_le _)
          rw [objectPath, hsized.hash] at hreading
          exact hreading
      | _ => cases hcall
  | @reading object fileSize position hsized hposition =>
      have hlength : ((lib.createWireFormatBuffer object).take position).length = position :=
        List.length_take_of_le (hposition.trans hsized.size_le)
      cases ask with
      | read count =>
          obtain ⟨hread, hbytes⟩ :=
            h.read hsized (show position + min count (fileSize - position) ≤ fileSize by omega)
          simp only [CCNxFileRepoCache.callLookup, hlength, hread, hbytes,
            Option.some.injEq] at hcall
          subst hcall
          rw [← List.take_add]
          exact .reading hsized (by omega)
      | close =>
          simp only [CCNxFileRepoCache.callLookup, hlength] at hcall
          split at hcall
          · rename_i hend
            cases hcall
            obtain rfl : position = fileSize := by
              by_contra hne
              obtain ⟨hread, hbytes⟩ := h.read hsized (show position + 1 ≤ fileSize by omega)
              rw [← hread, hend.resolve_left hne] at hbytes
              cases hbytes
            exact .answered hsized.right
          · cases hcall
      | _ => cases hcall
  | answered hanswer => cases ask <;> cases hcall

end CCNxFileRepoCache

end CCNxFileRepo
