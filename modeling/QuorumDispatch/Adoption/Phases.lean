import Mathlib.Logic.Function.Basic
import QuorumDispatch.Lib.Faults
import QuorumDispatch.Lib.Text

/-!
The phases of an adoption. A record of the session is prepared, then pending, then final. Each move
writes the record of the new phase, removes that of the old one, and takes the new one back where the
removal fails.
-/

namespace QuorumDispatch.Adoption

open Lib

inductive Phase where
  | prepared
  | pending
  | final
deriving DecidableEq, Repr

/-- The directory of the phase: `PREPARED_DIR`, `PENDING_DIR` and `FINAL_DIR`. -/
def Phase.dir : Phase → String
  | prepared => "prepared"
  | pending => "pending"
  | final => "final"

structure SessionIdentity where
  sessionId : String
  pid : Int
  startMs : Int
  incarnation : UInt64
deriving DecidableEq, Repr

structure AdoptRecord where
  version : UInt8
  state : String
  name : String
  sessionId : String
  identity : SessionIdentity
  cwd : Option String
  restartCommand : String
  preparedAtMs : Int
deriving DecidableEq, Repr

structure Path where
  phase : Phase
  name : String
deriving DecidableEq, Repr

/-! ### The steps -/

inductive Step where
  | createDirAll (phase : Phase)
  /-- Open for writing, created or truncated. -/
  | createTruncate (path : Path)
  | writeAll (path : Path) (bytes : Bytes)
  | syncAll (path : Path)
  | rename (src dst : Path)
  | syncDirectory (phase : Phase)
deriving DecidableEq

inductive Ask where
  | step (step : Step)
  | removeFile (path : Path)
  | read (path : Path)
deriving DecidableEq

inductive Removal where
  | ok
  | notFound
  | failed (text : String)
deriving DecidableEq, Repr

def Answer : Ask → Type
  | .step _ => Except String Unit
  | .removeFile _ => Removal
  | .read _ => Except String Bytes

abbrev Op := Dialog Ask Answer

def ask (q : Ask) : Op (Answer q) := Dialog.query q

def andThen (m next : Op (Except String Unit)) : Op (Except String Unit) := do
  match ← m with
  | .error e => pure (.error e)
  | .ok _ => next

/-- `serde_json` on records. -/
structure RecordJson where
  toVecPretty : AdoptRecord → Except String Bytes
  fromSlice : Bytes → Except String AdoptRecord

/-- The text of the record, with a line end behind it, reads as the record. -/
def RecordJson.RoundTrips (json : RecordJson) (record : AdoptRecord) : Prop :=
  ∃ bytes, json.toVecPretty record = .ok bytes ∧ json.fromSlice (bytes ++ [10]) = .ok record

structure Site where
  stateDir : String
  sessionKey : String → String
  processId : Nat
  json : RecordJson

namespace Site

variable (site : Site)

def statePath (phase : Phase) (sessionId : String) : Path := ⟨phase, site.sessionKey sessionId ++ ".json"⟩

def preparedPath (sessionId : String) : Path := site.statePath .prepared sessionId

def pendingPath (sessionId : String) : Path := site.statePath .pending sessionId

def finalPath (sessionId : String) : Path := site.statePath .final sessionId

def tmpPath (path : Path) : Path := ⟨path.phase, "." ++ path.name ++ ".tmp-" ++ toString site.processId⟩

def displayDir (phase : Phase) : String := site.stateDir ++ "/adoption/" ++ phase.dir

def display (path : Path) : String := site.displayDir path.phase ++ "/" ++ path.name

/-! ### Reading, writing and removing a record -/

def readRecord (path : Path) : Op (Except String AdoptRecord) := do
  match ← ask (.read path) with
  | .error e => pure (.error ("could not read " ++ site.display path ++ ": " ++ e))
  | .ok bytes =>
      match site.json.fromSlice bytes with
      | .error e => pure (.error ("could not parse " ++ site.display path ++ ": " ++ e))
      | .ok record => pure (.ok record)

/-- The steps `write` of `atomic_write_bytes`, each of which ends it where it fails. -/
def writeSteps (path tmp : Path) (bytes : Bytes) : Op (Except String Unit) :=
  andThen (ask (.step (.createTruncate tmp))) <|
  andThen (ask (.step (.writeAll tmp bytes))) <|
  andThen (ask (.step (.syncAll tmp))) <|
  andThen (ask (.step (.rename tmp path))) <|
  ask (.step (.syncDirectory path.phase))

def atomicWriteBytes (path tmp : Path) (bytes : Bytes) : Op (Except String Unit) := do
  match ← writeSteps path tmp bytes with
  | .error e =>
      let _ ← ask (.removeFile tmp)
      pure (.error ("could not write " ++ site.display path ++ ": " ++ e))
  | .ok _ => pure (.ok ())

def atomicWriteJson (path : Path) (record : AdoptRecord) : Op (Except String Unit) := do
  match ← ask (.step (.createDirAll path.phase)) with
  | .error e => pure (.error ("could not create " ++ site.displayDir path.phase ++ ": " ++ e))
  | .ok _ =>
      match site.json.toVecPretty record with
      | .error e => pure (.error ("could not encode adoption state: " ++ e))
      | .ok bytes => site.atomicWriteBytes path (site.tmpPath path) (bytes ++ [10])

end Site

def durableRemove (path : Path) : Op (Except String Unit) := do
  match ← ask (.removeFile path) with
  | .ok => ask (.step (.syncDirectory path.phase))
  | .notFound => pure (.ok ())
  | .failed e => pure (.error e)

/-! ### The moves -/

namespace Site

variable (site : Site)

def rollbackPending (sessionId : String) : Op (Except String Unit) := do
  match ← durableRemove (site.pendingPath sessionId) with
  | .error e => pure (.error ("could not remove " ++ site.display (site.pendingPath sessionId) ++ ": " ++ e))
  | .ok _ => pure (.ok ())

/-- The end of a move: the record of the old phase is removed, or else the rollback is made. The texts
are those of the two moves. -/
def removeOrRollBack (old new : Path) (rollback : Op (Except String Unit)) (failed back stuck : String) :
    Op (Except String Path) := do
  match ← durableRemove old with
  | .ok _ => pure (.ok new)
  | .error e =>
      match ← rollback with
      | .ok _ => pure (.error (failed ++ site.display old ++ ": " ++ e ++ "; " ++ back))
      | .error rollbackErr =>
          pure (.error (failed ++ site.display old ++ ": " ++ e ++ "; " ++ (stuck ++ rollbackErr)))

def registerPending (record : AdoptRecord) : Op (Except String Path) := do
  let pending := { record with state := "pending" }
  let path := site.pendingPath pending.sessionId
  match ← site.atomicWriteJson path pending with
  | .error e => pure (.error e)
  | .ok _ =>
      site.removeOrRollBack (site.preparedPath pending.sessionId) path (site.rollbackPending pending.sessionId)
        "prepared-adopt cleanup failed for " "pending-adopt state rolled back"
        "pending-adopt rollback FAILED: "

def finalizeAdoption (record : AdoptRecord) : Op (Except String Path) := do
  let pendingPath := site.pendingPath record.sessionId
  match ← site.readRecord pendingPath with
  | .error e =>
      pure (.error ("pending-adopt state is missing or unreadable before final registration: " ++ e))
  | .ok pending =>
      if pending.state ≠ "pending" ∨ pending.sessionId ≠ record.sessionId ∨ pending.identity ≠ record.identity then
        pure (.error "pending-adopt state disagrees with the adoption being finalized")
      else
        let finalRecord := { record with state := "final" }
        let finalPath := site.finalPath record.sessionId
        match ← site.atomicWriteJson finalPath finalRecord with
        | .error e => pure (.error e)
        | .ok _ =>
            site.removeOrRollBack pendingPath finalPath (durableRemove finalPath)
              "pending-adopt cleanup failed for " "final registration rolled back"
              "final registration rollback FAILED: "

end Site

/-! ### The file system -/

structure File where
  bytes : Bytes
  synced : Bool
deriving DecidableEq, Repr

/-- The directory entries as programs see them, and as the disk has them. -/
structure Files where
  live : Path → Option File
  kept : Path → Option File

namespace Files

variable (s : Files)

/-- A write to the file at the path; what the disk has of it is no longer whole. -/
def put (path : Path) (bytes : Bytes) : Files where
  live := Function.update s.live path (some ⟨bytes, false⟩)
  kept := Function.update s.kept path ((s.kept path).map fun f => { f with synced := false })

def bytesAt (path : Path) : Bytes := ((s.live path).map File.bytes).getD []

def sync (path : Path) : Files where
  live := Function.update s.live path ((s.live path).map fun f => { f with synced := true })
  kept := s.kept

def rename (src dst : Path) : Files where
  live := Function.update (Function.update s.live dst (s.live src)) src none
  kept := s.kept

def syncDirectory (phase : Phase) : Files where
  live := s.live
  kept path := if path.phase = phase then s.live path else s.kept path

def remove (path : Path) : Files := { s with live := Function.update s.live path none }

def noEntry : String := "No such file or directory (os error 2)"

def read (path : Path) : Except String Bytes :=
  match s.live path with
  | none => .error noEntry
  | some f => .ok f.bytes

def take : Step → Files × Except String Unit
  | .createDirAll _ => (s, .ok ())
  | .createTruncate path => (s.put path [], .ok ())
  | .writeAll path bytes => (s.put path (s.bytesAt path ++ bytes), .ok ())
  | .syncAll path => (s.sync path, .ok ())
  | .rename src dst => if (s.live src).isSome then (s.rename src dst, .ok ()) else (s, .error noEntry)
  | .syncDirectory phase => (s.syncDirectory phase, .ok ())

/-- What a step that fails leaves. A write may have come so far. -/
def failAt (cut : Nat) : Step → Files
  | .writeAll path bytes => s.put path (s.bytesAt path ++ bytes.take cut)
  | _ => s

def perform : (q : Ask) → Files × Answer q
  | .step step => s.take step
  | .removeFile path => if (s.live path).isSome then (s.remove path, .ok) else (s, .notFound)
  | .read path => (s, s.read path)

def fail (text : String) (cut : Nat) : (q : Ask) → Files × Answer q
  | .step step => (s.failAt cut step, .error text)
  | .removeFile _ => (s, .failed text)
  | .read _ => (s, .error text)

/-- What may be on the disk after a crash: for every entry the one that programs saw or the one that the
disk had, and of a file that was not synced any bytes. -/
def Survives (disk : Path → Option Bytes) : Prop :=
  ∀ path, ∃ f, (f = s.live path ∨ f = s.kept path) ∧
    match f with
    | none => disk path = none
    | some f => ∃ bytes, disk path = some bytes ∧ (f.synced = true → bytes = f.bytes)

end Files

def world (text : String) (cut : Nat) : World Ask Answer Files where
  perform := Files.perform
  fail s := s.fail text cut

/-! ### What a move promises -/

namespace Site

variable (site : Site)

def HasRecord (sessionId : String) (identity : SessionIdentity) (disk : Path → Option Bytes) : Prop :=
  ∃ phase bytes record, disk (site.statePath phase sessionId) = some bytes ∧
    site.json.fromSlice bytes = .ok record ∧ record.identity = identity

def Settled (s : Files) (path : Path) (identity : SessionIdentity) : Prop :=
  ∃ f record, s.live path = some f ∧ s.kept path = some f ∧ f.synced = true ∧
    site.json.fromSlice f.bytes = .ok record ∧ record.identity = identity

/-- A move of the record from the old phase to the new one. Where it fails the records are those from
before; where it succeeds the record is in the new phase and not in the old one; and a crash on the way
finds a record with the identity that the old one has. -/
structure MovesCleanly (old new : Phase) (record : AdoptRecord) (before : Files)
    (r : Course Ask Files (Except String Path)) : Prop where
  failed : ∀ e, r.result = .error e → ∀ phase,
    (r.final.live (site.statePath phase record.sessionId)).map File.bytes =
      (before.live (site.statePath phase record.sessionId)).map File.bytes
  moved : ∀ path, r.result = .ok path → path = site.statePath new record.sessionId ∧
    (∃ f, r.final.live path = some f ∧
      site.json.fromSlice f.bytes = .ok { record with state := new.dir }) ∧
    r.final.live (site.statePath old record.sessionId) = none
  crashed : site.Settled before (site.statePath old record.sessionId) record.identity →
    ∀ s ∈ r.states, ∀ disk, s.Survives disk → site.HasRecord record.sessionId record.identity disk

def text (record : AdoptRecord) : Option Bytes :=
  match site.json.toVecPretty record with
  | .error _ => none
  | .ok bytes => some (bytes ++ [10])

/-- The failing step is a directory sync behind a rename that put other bytes than were there, or one
behind the unlink of the old record, or that unlink itself where the new phase had a record. -/
def Slips (old new : Phase) (record : AdoptRecord) (before : Files) (fault : Option Ask) : Prop :=
  (fault = some (.step (.syncDirectory new)) ∧
    (before.live (site.statePath new record.sessionId)).map File.bytes ≠
      site.text { record with state := new.dir }) ∨
  (fault = some (.removeFile (site.statePath old record.sessionId)) ∧
    before.live (site.statePath new record.sessionId) ≠ none) ∨
  (fault = some (.step (.syncDirectory old)) ∧ before.live (site.statePath old record.sessionId) ≠ none)

end Site

/-! ### The records of a session -/

abbrev Records := Phase → Option File × Option File

namespace Site

variable (site : Site) {phase phase' : Phase} {id : String} {s : Files} {bytes : Bytes} {text : String}
  {cut : Nat}

def records (id : String) (s : Files) : Records :=
  fun phase => (s.live (site.statePath phase id), s.kept (site.statePath phase id))

theorem statePath_inj (h : site.statePath phase id = site.statePath phase' id) : phase = phase' := by
  cases h
  rfl

theorem tmpPath_ne_statePath : site.tmpPath (site.statePath phase id) ≠ site.statePath phase' id := by
  intro h
  have hlength := congrArg (fun path => path.name.length) h
  simp only [tmpPath, statePath, String.length_append] at hlength
  have htmp : ".tmp-".length = 5 := rfl
  omega

theorem records_put_tmp : site.records id (s.put (site.tmpPath (site.statePath phase id)) bytes) =
    site.records id s := by
  ext phase' : 1
  have hne : site.statePath phase' id ≠ site.tmpPath (site.statePath phase id) := site.tmpPath_ne_statePath.symm
  exact Prod.ext (Function.update_of_ne hne ..) (Function.update_of_ne hne ..)

theorem records_syncAll_tmp : site.records id (s.sync (site.tmpPath (site.statePath phase id))) =
    site.records id s := by
  ext phase' : 1
  exact Prod.ext (Function.update_of_ne site.tmpPath_ne_statePath.symm ..) rfl

theorem records_rename {f : File} (hf : s.live (site.tmpPath (site.statePath phase id)) = some f) :
    site.records id (s.rename (site.tmpPath (site.statePath phase id)) (site.statePath phase id)) =
      Function.update (site.records id s) phase (some f, (site.records id s phase).2) := by
  ext phase' : 1
  rw [← hf]
  rcases eq_or_ne phase' phase with rfl | hne
  · rw [Function.update_self]
    refine Prod.ext ?_ rfl
    exact (Function.update_of_ne site.tmpPath_ne_statePath.symm ..).trans (Function.update_self ..)
  · rw [Function.update_of_ne hne]
    refine Prod.ext ?_ rfl
    exact (Function.update_of_ne site.tmpPath_ne_statePath.symm ..).trans
      (Function.update_of_ne (fun h => hne (site.statePath_inj h)) ..)

theorem records_syncDirectory : site.records id (s.syncDirectory phase) =
    Function.update (site.records id s) phase ((site.records id s phase).1, (site.records id s phase).1) := by
  ext phase' : 1
  rcases eq_or_ne phase' phase with rfl | hne
  · rw [Function.update_self]
    exact Prod.ext rfl (if_pos rfl)
  · rw [Function.update_of_ne hne]
    exact Prod.ext rfl (if_neg hne)

theorem records_remove_tmp :
    site.records id (s.remove (site.tmpPath (site.statePath phase id))) = site.records id s := by
  ext phase' : 1
  exact Prod.ext (Function.update_of_ne site.tmpPath_ne_statePath.symm ..) rfl

theorem records_perform_removeFile_tmp : site.records id
    ((world text cut).perform s (.removeFile (site.tmpPath (site.statePath phase id)))).1 = site.records id s := by
  change site.records id (s.perform (.removeFile _)).1 = _
  rw [Files.perform]
  split
  · exact site.records_remove_tmp
  · rfl

theorem records_remove : site.records id (s.remove (site.statePath phase id)) =
    Function.update (site.records id s) phase (none, (site.records id s phase).2) := by
  ext phase' : 1
  rcases eq_or_ne phase' phase with rfl | hne
  · rw [Function.update_self]
    exact Prod.ext (Function.update_self ..) rfl
  · rw [Function.update_of_ne hne]
    exact Prod.ext (Function.update_of_ne (fun h => hne (site.statePath_inj h)) ..) rfl

end Site

/-! ### How a write and a removal end -/

def Ask.IsEarly : Ask → Prop
  | step (.syncDirectory _) => False
  | removeFile _ => False
  | _ => True

inductive WriteEnds (R : Records) (phase : Phase) (f : File) (fault : Option Ask) :
    Option Ask → Records → Except String Unit → Prop where
  | done (h : fault ≠ some (.step (.syncDirectory phase))) :
      WriteEnds R phase f fault fault (Function.update R phase (some f, some f)) (.ok ())
  | unsynced (h : fault = some (.step (.syncDirectory phase))) (e) :
      WriteEnds R phase f fault none (Function.update R phase (some f, (R phase).2)) (.error e)
  | early {q} (h : fault = some q) (hq : q.IsEarly) (e) : WriteEnds R phase f fault none R (.error e)

inductive RemoveEnds (R : Records) (phase : Phase) (path : Path) (fault : Option Ask) :
    Option Ask → Records → Except String Unit → Prop where
  | absent (h : fault ≠ some (.removeFile path)) (hnone : (R phase).1 = none) :
      RemoveEnds R phase path fault fault R (.ok ())
  | done (h : fault ≠ some (.removeFile path)) (hsync : fault ≠ some (.step (.syncDirectory phase)))
      (hsome : (R phase).1 ≠ none) :
      RemoveEnds R phase path fault fault (Function.update R phase (none, none)) (.ok ())
  | unsynced (h : fault = some (.step (.syncDirectory phase))) (hsome : (R phase).1 ≠ none) (e) :
      RemoveEnds R phase path fault none (Function.update R phase (none, (R phase).2)) (.error e)
  | stays (h : fault = some (.removeFile path)) (e) : RemoveEnds R phase path fault none R (.error e)

namespace Site

variable (site : Site) {phase : Phase} {id : String} {s : Files} {bytes : Bytes} {text : String} {cut : Nat}
  {fault : Option Ask} {inv : Records → Prop} {R : Records}

theorem live_put {path : Path} : (s.put path bytes).live path = some ⟨bytes, false⟩ :=
  Function.update_self ..

theorem andThen_leaves {step : Step} {next : Op (Except String Unit)}
    {post : Option Ask → Files → Except String Unit → Prop} (hs : inv (site.records id s))
    (hok : (s.take step).2 = .ok ())
    (hfail : fault = some (.step step) → post none (s.failAt cut step) (.error text))
    (hwell : fault ≠ some (.step step) →
      (world text cut).Leaves (fun s' => inv (site.records id s')) fault (s.take step).1 next post) :
    (world text cut).Leaves (fun s' => inv (site.records id s')) fault s
      (andThen (ask (.step step)) next) post := by
  refine .query hs (fun hne => ?_) fun h => World.leaves_pure.mpr (hfail h)
  change World.Leaves _ _ fault (s.take step).1 (match (s.take step).2 with
    | .error e => pure (.error e)
    | .ok _ => next) post
  rw [hok]
  exact hwell hne

theorem writeSteps_leaves (hR : site.records id s = R) (hinv : inv R)
    (hrenamed : inv (Function.update R phase (some ⟨bytes, true⟩, (R phase).2))) :
    (world text cut).Leaves (fun s' => inv (site.records id s')) fault s
      (writeSteps (site.statePath phase id) (site.tmpPath (site.statePath phase id)) bytes)
      fun fault' s' r => WriteEnds R phase ⟨bytes, true⟩ fault fault' (site.records id s') r := by
  generalize htmp : site.tmpPath (site.statePath phase id) = tmp
  have hput {s : Files} (bs : Bytes) (h : site.records id s = R) : site.records id (s.put tmp bs) = R := by
    rw [← htmp, records_put_tmp, h]
  -- created, written and synced
  refine site.andThen_leaves (hR ▸ hinv) rfl (fun h => hR ▸ .early h trivial text) fun _ => ?_
  have hR₁ := hput [] hR
  refine site.andThen_leaves (hR₁ ▸ hinv) rfl (fun h => hput _ hR₁ ▸ .early h trivial text) fun _ => ?_
  have hwritten : ((s.put tmp []).take (.writeAll tmp bytes)).1 = (s.put tmp []).put tmp bytes := by
    rw [Files.take, Files.bytesAt, live_put]
    rfl
  rw [show (s.take (.createTruncate tmp)).1 = s.put tmp [] from rfl, hwritten]
  have hR₂ := hput bytes hR₁
  refine site.andThen_leaves (hR₂ ▸ hinv) rfl (fun h => hR₂ ▸ .early h trivial text) fun _ => ?_
  have hR₃ : site.records id (((s.put tmp []).put tmp bytes).sync tmp) = R := by
    rw [← htmp, records_syncAll_tmp, htmp, hR₂]
  have hf : (((s.put tmp []).put tmp bytes).sync tmp).live tmp = some ⟨bytes, true⟩ := by
    refine (Function.update_self ..).trans ?_
    rw [live_put]
    rfl
  change World.Leaves _ _ _ (((s.put tmp []).put tmp bytes).sync tmp) _ _
  generalize ((s.put tmp []).put tmp bytes).sync tmp = s₃ at hR₃ hf
  -- renamed, and the directory synced
  have hrename : s₃.take (.rename tmp (site.statePath phase id)) =
      (s₃.rename tmp (site.statePath phase id), .ok ()) := by
    rw [Files.take, hf]
    rfl
  refine site.andThen_leaves (hR₃ ▸ hinv) (by rw [hrename]) (fun h => hR₃ ▸ .early h trivial text) fun _ => ?_
  rw [hrename]
  have hR₄ : site.records id (s₃.rename tmp (site.statePath phase id)) =
      Function.update R phase (some ⟨bytes, true⟩, (R phase).2) := by
    rw [← hR₃]
    exact htmp ▸ site.records_rename (htmp ▸ hf)
  refine .query (hR₄ ▸ hrenamed) (fun h => World.leaves_pure.mpr ?_) fun h => World.leaves_pure.mpr ?_
  · have hR₅ : site.records id ((s₃.rename tmp (site.statePath phase id)).syncDirectory phase) =
        Function.update R phase (some ⟨bytes, true⟩, some ⟨bytes, true⟩) := by
      rw [records_syncDirectory, hR₄, Function.update_self, Function.update_idem]
    exact hR₅ ▸ .done h
  · exact hR₄ ▸ .unsynced h text

theorem atomicWriteJson_leaves {record : AdoptRecord} (hbytes : site.text record = some bytes)
    (hR : site.records id s = R) (hinv : inv R)
    (hrenamed : inv (Function.update R phase (some ⟨bytes, true⟩, (R phase).2)))
    (hwritten : inv (Function.update R phase (some ⟨bytes, true⟩, some ⟨bytes, true⟩))) :
    (world text cut).Leaves (fun s' => inv (site.records id s')) fault s
      (site.atomicWriteJson (site.statePath phase id) record)
      fun fault' s' r => WriteEnds R phase ⟨bytes, true⟩ fault fault' (site.records id s') r ∧
        inv (site.records id s') := by
  refine .query (hR ▸ hinv) (fun _ => ?_) fun h => World.leaves_pure.mpr ?_
  · rw [Site.text] at hbytes
    change World.Leaves _ _ fault s (match site.json.toVecPretty record with
      | .error e => _
      | .ok bytes => _) _
    split at hbytes
    · cases hbytes
    cases hbytes
    refine (site.writeSteps_leaves hR hinv hrenamed).bind fun fault' s' r hends => ?_
    generalize hR' : site.records id s' = R' at hends
    cases hends with
    | done h => exact World.leaves_pure.mpr ⟨hR' ▸ .done h, hR' ▸ hwritten⟩
    | unsynced h =>
        have hinv' := hR' ▸ hrenamed
        refine .query hinv' (fun _ => World.leaves_pure.mpr ?_) nofun
        rw [site.records_perform_removeFile_tmp, hR']
        exact ⟨.unsynced h _, hrenamed⟩
    | early h hq =>
        refine .query (hR' ▸ hinv) (fun _ => World.leaves_pure.mpr ?_) nofun
        rw [site.records_perform_removeFile_tmp, hR']
        exact ⟨.early h hq _, hinv⟩
  · exact ⟨hR ▸ .early h trivial _, hR ▸ hinv⟩

theorem removeFile_leaves {α : Type} {path : Path} {next : Removal → Op α} {post : Option Ask → Files → α → Prop}
    {inv : Files → Prop} (hs : inv s)
    (hfail : fault = some (.removeFile path) → (world text cut).Leaves inv none s (next (.failed text)) post)
    (hnone : fault ≠ some (.removeFile path) → s.live path = none →
      (world text cut).Leaves inv fault s (next .notFound) post)
    (hsome : fault ≠ some (.removeFile path) → s.live path ≠ none →
      (world text cut).Leaves inv fault (s.remove path) (next .ok) post) :
    (world text cut).Leaves inv fault s (ask (.removeFile path) >>= next) post := by
  refine .query hs (fun hne => ?_) hfail
  by_cases h : (s.live path).isSome = true
  · rw [show (world text cut).perform s (.removeFile path) = (s.remove path, .ok) from if_pos h]
    exact hsome hne (Option.isSome_iff_ne_none.mp h)
  · rw [show (world text cut).perform s (.removeFile path) = (s, .notFound) from if_neg h]
    exact hnone hne (Option.not_isSome_iff_eq_none.mp h)

theorem durableRemove_leaves (hR : site.records id s = R) (hinv : inv R)
    (hunlinked : fault ≠ some (.removeFile (site.statePath phase id)) → (R phase).1 ≠ none →
      inv (Function.update R phase (none, (R phase).2))) :
    (world text cut).Leaves (fun s' => inv (site.records id s')) fault s (durableRemove (site.statePath phase id))
      fun fault' s' r => RemoveEnds R phase (site.statePath phase id) fault fault' (site.records id s') r := by
  have hlive : (R phase).1 = s.live (site.statePath phase id) := hR ▸ rfl
  refine removeFile_leaves (hR ▸ hinv) (fun h => ?_) (fun hne hnone => ?_) fun hne hsome => ?_
  · exact World.leaves_pure.mpr (hR ▸ .stays h text)
  · exact World.leaves_pure.mpr (hR ▸ .absent hne (hR ▸ hlive.trans hnone))
  · have hpresent : (R phase).1 ≠ none := hlive ▸ hsome
    have hR₁ : site.records id (s.remove (site.statePath phase id)) =
        Function.update R phase (none, (R phase).2) := by rw [records_remove, hR]
    refine .query (hR₁ ▸ hunlinked hne hpresent) (fun hsync => World.leaves_pure.mpr ?_) fun hsync =>
      World.leaves_pure.mpr (hR₁ ▸ .unsynced hsync hpresent text)
    have hR₂ : site.records id ((s.remove (site.statePath phase id)).syncDirectory phase) =
        Function.update R phase (none, none) := by
      rw [records_syncDirectory, hR₁, Function.update_self, Function.update_idem]
    exact hR₂ ▸ .done hne hsync hpresent

end Site

/-! ### How a move ends -/

inductive Passed (R : Records) (old new : Phase) (f : File) (fault : Option Ask) : Records → Prop where
  | start : Passed R old new f fault R
  | renamed : Passed R old new f fault (Function.update R new (some f, (R new).2))
  | written : Passed R old new f fault (Function.update R new (some f, some f))
  | unlinked : Passed R old new f fault
      (Function.update (Function.update R new (some f, some f)) old (none, (R old).2))
  | removed : Passed R old new f fault
      (Function.update (Function.update R new (some f, some f)) old (none, none))
  | takenBack : Passed R old new f fault (Function.update R new (none, some f))
  | back : Passed R old new f fault (Function.update R new (none, none))
  | lost (h : fault = some (.step (.syncDirectory old))) (hsome : (R old).1 ≠ none) (R' : Records) :
      Passed R old new f fault R'

inductive MoveEnds (R : Records) (old new : Phase) (oldPath newPath : Path) (f : File) (fault : Option Ask) :
    Records → Except String Path → Prop where
  | early {q} (h : fault = some q) (hq : q.IsEarly) (e) : MoveEnds R old new oldPath newPath f fault R (.error e)
  | unsynced (h : fault = some (.step (.syncDirectory new))) (e) :
      MoveEnds R old new oldPath newPath f fault (Function.update R new (some f, (R new).2)) (.error e)
  | stays (h : fault = some (.removeFile oldPath)) (e) :
      MoveEnds R old new oldPath newPath f fault (Function.update R new (none, none)) (.error e)
  | lost (h : fault = some (.step (.syncDirectory old))) (hsome : (R old).1 ≠ none) (kept e) :
      MoveEnds R old new oldPath newPath f fault
        (Function.update (Function.update R new (none, none)) old (none, kept)) (.error e)
  | absent (hnew : fault ≠ some (.step (.syncDirectory new))) (hold : fault ≠ some (.removeFile oldPath))
      (hnone : (R old).1 = none) :
      MoveEnds R old new oldPath newPath f fault (Function.update R new (some f, some f)) (.ok newPath)
  | moved (hnew : fault ≠ some (.step (.syncDirectory new))) (hold : fault ≠ some (.removeFile oldPath))
      (hsync : fault ≠ some (.step (.syncDirectory old))) :
      MoveEnds R old new oldPath newPath f fault
        (Function.update (Function.update R new (some f, some f)) old (none, none)) (.ok newPath)

namespace Site

variable (site : Site) {old new : Phase} {id : String} {s : Files} {bytes : Bytes} {text : String} {cut : Nat}
  {fault : Option Ask} {R : Records} {record : AdoptRecord} {rollback : Op (Except String Unit)}
  {failed back stuck : String}

def TakesBack (new : Phase) (id : String) (rollback : Op (Except String Unit)) : Prop :=
  ∀ text cut s R (inv : Records → Prop), site.records id s = R → inv R →
    inv (Function.update R new (none, (R new).2)) → (R new).1 ≠ none →
    (world text cut).Leaves (fun s' => inv (site.records id s')) none s rollback fun _ s' _ =>
      site.records id s' = Function.update R new (none, none)

theorem durableRemove_takesBack : site.TakesBack new id (durableRemove (site.statePath new id)) := by
  intro text cut s R inv hR hinv hunlinked hsome
  refine (site.durableRemove_leaves hR hinv fun _ _ => hunlinked).mono fun fault' s' r hends => ?_
  generalize hR' : site.records id s' = R' at hends
  cases hends with
  | done => rfl
  | absent h hnone => exact absurd hnone hsome
  | unsynced h => cases h
  | stays h => cases h

theorem rollbackPending_takesBack : site.TakesBack .pending id (site.rollbackPending id) := by
  intro text cut s R inv hR hinv hunlinked hsome
  refine (site.durableRemove_takesBack text cut s R inv hR hinv hunlinked hsome).bind fun fault' s' r hR' => ?_
  cases r with
  | ok _ => exact World.leaves_pure.mpr hR'
  | error e => exact World.leaves_pure.mpr hR'

theorem move_leaves (hne : old ≠ new) (hrollback : site.TakesBack new id rollback)
    (hbytes : site.text record = some bytes) (hR : site.records id s = R) :
    (world text cut).Leaves (fun s' => Passed R old new ⟨bytes, true⟩ fault (site.records id s')) fault s
      (do match ← site.atomicWriteJson (site.statePath new id) record with
          | .error e => pure (.error e)
          | .ok _ => site.removeOrRollBack (site.statePath old id) (site.statePath new id) rollback failed back stuck)
      fun _ s' r => MoveEnds R old new (site.statePath old id) (site.statePath new id) ⟨bytes, true⟩ fault
        (site.records id s') r := by
  set f : File := ⟨bytes, true⟩
  refine (site.atomicWriteJson_leaves hbytes hR .start .renamed .written).bind ?_
  rintro fault' s₁ r₁ ⟨hwrite, -⟩
  generalize hR₁ : site.records id s₁ = R₁ at hwrite
  cases hwrite with
  | early h hq e => exact World.leaves_pure.mpr (hR₁ ▸ .early h hq e)
  | unsynced h e => exact World.leaves_pure.mpr (hR₁ ▸ .unsynced h e)
  | done hnew =>
  have hold : Function.update R new (some f, some f) old = R old := Function.update_of_ne hne ..
  have hself : Function.update R new (some f, some f) new = (some f, some f) := Function.update_self ..
  refine (site.durableRemove_leaves hR₁ .written fun _ _ => ?_).bind ?_
  · rw [hold]
    exact .unlinked
  intro fault₂ s₂ r₂ hremove
  generalize hR₂ : site.records id s₂ = R₂ at hremove
  cases hremove with
  | absent hno hnone => exact World.leaves_pure.mpr (hR₂ ▸ .absent hnew hno (hold ▸ hnone))
  | done hno hsync hsome => exact World.leaves_pure.mpr (hR₂ ▸ .moved hnew hno hsync)
  | stays h e =>
      have htaken := hrollback text cut s₂ _ (Passed R old new f fault) hR₂ .written
        (by rw [hself, Function.update_idem]; exact .takenBack) (by rw [hself]; nofun)
      refine htaken.bind fun _ s₃ r₃ hR₃ => ?_
      rw [Function.update_idem] at hR₃
      cases r₃ with
      | ok _ => exact World.leaves_pure.mpr (hR₃ ▸ .stays h _)
      | error _ => exact World.leaves_pure.mpr (hR₃ ▸ .stays h _)
  | unsynced h hsome e =>
      rw [hold] at hsome hR₂
      have hnew₂ : Function.update (Function.update R new (some f, some f)) old (none, (R old).2) new =
          (some f, some f) := by rw [Function.update_of_ne hne.symm, hself]
      have htaken := hrollback text cut s₂ _ (Passed R old new f fault) hR₂ (.lost h hsome _) (.lost h hsome _)
        (by rw [hnew₂]; nofun)
      refine htaken.bind fun _ s₃ r₃ hR₃ => ?_
      rw [Function.update_comm hne, Function.update_idem] at hR₃
      cases r₃ with
      | ok _ => exact World.leaves_pure.mpr (hR₃ ▸ .lost h hsome _ _)
      | error _ => exact World.leaves_pure.mpr (hR₃ ▸ .lost h hsome _ _)

end Site

/-! ### What a crash finds -/

variable {site : Site} {old new : Phase} {id : String} {s before : Files} {text : String} {cut : Nat}
  {fault : Option Ask} {R : Records} {f : File} {record : AdoptRecord}

theorem Passed.hasRecord {identity : SessionIdentity} {disk : Path → Option Bytes}
    (hpassed : Passed (site.records id before) old new f fault (site.records id s)) (hne : old ≠ new)
    (hsynced : f.synced = true) (hparse : site.json.fromSlice f.bytes = .ok record)
    (hid : record.identity = identity) (hfault : fault ≠ some (.step (.syncDirectory old)))
    (hsettled : site.Settled before (site.statePath old id) identity) (hdisk : s.Survives disk) :
    site.HasRecord id identity disk := by
  obtain ⟨g, record', hlive, hkept, hg, hparse', hid'⟩ := hsettled
  have hfind (phase : Phase) {f : File} {record : AdoptRecord} (hR : site.records id s phase = (some f, some f))
      (hf : f.synced = true) (hp : site.json.fromSlice f.bytes = .ok record) (hi : record.identity = identity) :
      site.HasRecord id identity disk := by
    obtain ⟨e, he, hdisk⟩ := hdisk (site.statePath phase id)
    have he' : e = some f := he.elim (·.trans (congrArg Prod.fst hR)) (·.trans (congrArg Prod.snd hR))
    subst he'
    obtain ⟨bytes, hbytes, hwhole⟩ := hdisk
    exact ⟨phase, bytes, record, hbytes, hwhole hf ▸ hp, hi⟩
  have hold : site.records id before old = (some g, some g) := Prod.ext hlive hkept
  have hstays {e : Option File × Option File}
      (hR : site.records id s = Function.update (site.records id before) new e) : site.HasRecord id identity disk :=
    hfind old (by rw [hR, Function.update_of_ne hne, hold]) hg hparse' hid'
  have hgone {e : Option File × Option File}
      (hR : site.records id s =
        Function.update (Function.update (site.records id before) new (some f, some f)) old e) :
      site.HasRecord id identity disk :=
    hfind new (by rw [hR, Function.update_of_ne hne.symm, Function.update_self]) hsynced hparse hid
  generalize hR : site.records id s = R' at hpassed
  cases hpassed with
  | start => exact hfind old (hR ▸ hold) hg hparse' hid'
  | renamed => exact hstays hR
  | written => exact hstays hR
  | unlinked => exact hgone hR
  | removed => exact hgone hR
  | takenBack => exact hstays hR
  | back => exact hstays hR
  | lost h => exact absurd h hfault

theorem MoveEnds.passed {R' : Records} {oldPath newPath : Path} {r : Except String Path}
    (h : MoveEnds R old new oldPath newPath f fault R' r) : Passed R old new f fault R' := by
  cases h with
  | early => exact .start
  | unsynced => exact .renamed
  | stays => exact .back
  | lost h hsome => exact .lost h hsome _
  | absent => exact .written
  | moved => exact .removed

section Ends

variable {bytes : Bytes} {R' : Records} {e : String} {path : Path}

theorem MoveEnds.failed (h : MoveEnds (site.records record.sessionId before) old new
      (site.statePath old record.sessionId) (site.statePath new record.sessionId) ⟨bytes, true⟩ fault R' (.error e))
    (hslips : ¬site.Slips old new record before fault)
    (htext : site.text { record with state := new.dir } = some bytes) (phase : Phase) :
    (R' phase).1.map File.bytes = (site.records record.sessionId before phase).1.map File.bytes := by
  cases h with
  | early => rfl
  | unsynced h =>
      rcases eq_or_ne phase new with rfl | hphase
      · by_contra hne
        rw [Function.update_self] at hne
        exact hslips (.inl ⟨h, fun heq => hne (htext.symm.trans heq.symm)⟩)
      · rw [Function.update_of_ne hphase]
  | stays h =>
      have hnone : (site.records record.sessionId before new).1 = none := by
        by_contra hne
        exact hslips (.inr (.inl ⟨h, hne⟩))
      rcases eq_or_ne phase new with rfl | hphase
      · rw [Function.update_self, hnone]
      · rw [Function.update_of_ne hphase]
  | lost h hsome => exact absurd (.inr (.inr ⟨h, hsome⟩)) hslips

theorem MoveEnds.ok (h : MoveEnds R old new (site.statePath old id) (site.statePath new id) f fault R' (.ok path))
    (hne : old ≠ new) : path = site.statePath new id ∧ (R' new).1 = some f ∧ (R' old).1 = none := by
  cases h with
  | absent _ _ hnone =>
      rw [Function.update_self, Function.update_of_ne hne]
      exact ⟨rfl, rfl, hnone⟩
  | moved =>
      rw [Function.update_of_ne hne.symm, Function.update_self, Function.update_self]
      exact ⟨rfl, rfl, rfl⟩

theorem MoveEnds.slips {r : Except String Path} (h : MoveEnds (site.records record.sessionId before) old new
      (site.statePath old record.sessionId) (site.statePath new record.sessionId) ⟨bytes, true⟩ fault R' r)
    (hne : old ≠ new) (hslips : site.Slips old new record before fault)
    (htext : site.text { record with state := new.dir } = some bytes) :
    ∃ e phase, r = .error e ∧
      (R' phase).1.map File.bytes ≠ (site.records record.sessionId before phase).1.map File.bytes := by
  rcases hslips with ⟨hfault, hbytes⟩ | ⟨hfault, hsome⟩ | ⟨hfault, hsome⟩
  · subst hfault
    cases h with
    | early h hq =>
        cases h
        cases hq
    | unsynced h e =>
        refine ⟨e, new, rfl, ?_⟩
        rw [Function.update_self]
        exact fun heq => hbytes (heq.symm.trans htext.symm)
    | stays h => cases h
    | lost h => exact absurd (by cases h; rfl) hne
    | absent h => exact absurd rfl h
    | moved h => exact absurd rfl h
  · subst hfault
    cases h with
    | early h hq =>
        cases h
        cases hq
    | unsynced h => cases h
    | stays h e =>
        refine ⟨e, new, rfl, ?_⟩
        rw [Function.update_self]
        exact fun heq => hsome (Option.map_eq_none_iff.mp heq.symm)
    | lost h => cases h
    | absent _ h => exact absurd rfl h
    | moved _ h => exact absurd rfl h
  · subst hfault
    cases h with
    | early h hq =>
        cases h
        cases hq
    | unsynced h => exact absurd (by cases h; rfl) hne
    | stays h => cases h
    | lost h hsome kept e =>
        refine ⟨e, old, rfl, ?_⟩
        rw [Function.update_self]
        exact fun heq => hsome (Option.map_eq_none_iff.mp heq.symm)
    | absent _ _ hnone => exact absurd hnone hsome
    | moved _ _ h => exact absurd rfl h

end Ends

/-- **A move is clean exactly if the failing step does not slip.** -/
theorem movesCleanly_iff {m : Op (Except String Path)} {bytes : Bytes} (hne : old ≠ new)
    (htext : site.text { record with state := new.dir } = some bytes)
    (hparse : site.json.fromSlice bytes = .ok { record with state := new.dir })
    (hm : (world text cut).Leaves
      (fun s' => Passed (site.records record.sessionId before) old new ⟨bytes, true⟩ fault
        (site.records record.sessionId s')) fault before m
      fun _ s' r => MoveEnds (site.records record.sessionId before) old new
        (site.statePath old record.sessionId) (site.statePath new record.sessionId) ⟨bytes, true⟩ fault
        (site.records record.sessionId s') r) :
    site.MovesCleanly old new record before ((world text cut).run m fault before) ↔
      ¬site.Slips old new record before fault := by
  obtain ⟨hpassed, hends⟩ := hm
  generalize (world text cut).run m fault before = r at hpassed hends ⊢
  constructor
  · intro h hslips
    obtain ⟨e, phase, hr, hchanged⟩ := hends.slips hne hslips htext
    exact hchanged (h.failed e hr phase)
  · intro hslips
    refine ⟨fun e hr phase => ?_, fun path hr => ?_, fun hsettled s hs disk hdisk => ?_⟩
    · rw [hr] at hends
      exact hends.failed hslips htext phase
    · rw [hr] at hends
      obtain ⟨rfl, hnew, hold⟩ := hends.ok hne
      exact ⟨rfl, ⟨_, hnew, hparse⟩, hold⟩
    · have hfault : fault ≠ some (.step (.syncDirectory old)) := fun h => by
        obtain ⟨g, -, hlive, -⟩ := hsettled
        exact hslips (.inr (.inr ⟨h, by rw [hlive]; nofun⟩))
      have hs' : Passed (site.records record.sessionId before) old new ⟨bytes, true⟩ fault
          (site.records record.sessionId s) := by
        rcases List.mem_append.mp hs with hs | hs
        · exact hpassed s hs
        · rw [List.mem_singleton.mp hs]
          exact hends.passed
      exact hs'.hasRecord hne rfl hparse rfl hfault hsettled hdisk

theorem registerPending_movesCleanly_iff (site : Site) (record : AdoptRecord) (text : String) (cut : Nat)
    (fault : Option Ask) (before : Files) (hjson : site.json.RoundTrips { record with state := "pending" }) :
    site.MovesCleanly .prepared .pending record before
        ((world text cut).run (site.registerPending record) fault before) ↔
      ¬site.Slips .prepared .pending record before fault := by
  obtain ⟨bytes, hprint, hparse⟩ := hjson
  have htext : site.text { record with state := Phase.pending.dir } = some (bytes ++ [10]) := by
    rw [Site.text, Phase.dir, hprint]
  exact movesCleanly_iff nofun htext hparse
    (site.move_leaves nofun site.rollbackPending_takesBack htext rfl)

def Site.Agrees (site : Site) (record : AdoptRecord) (s : Files) : Prop :=
  ∃ f pending, s.live (site.pendingPath record.sessionId) = some f ∧ site.json.fromSlice f.bytes = .ok pending ∧
    pending.state = "pending" ∧ pending.sessionId = record.sessionId ∧ pending.identity = record.identity

theorem movesCleanly_refused {e : String} {fault' : Option Ask} :
    site.MovesCleanly old new record before ⟨[before], fault', before, .error e⟩ where
  failed _ _ _ := rfl
  moved _ h := by cases h
  crashed hsettled s hs disk hdisk := by
    have hs : s = before := by
      rcases List.mem_append.mp hs with hs | hs
      · exact List.mem_singleton.mp hs
      · exact List.mem_singleton.mp hs
    subst hs
    obtain ⟨f, record', hlive, hkept, hsynced, hparse, hid⟩ := hsettled
    obtain ⟨g, hg, hdisk⟩ := hdisk (site.statePath old record.sessionId)
    have hg : g = some f := hg.elim (·.trans hlive) (·.trans hkept)
    subst hg
    obtain ⟨bytes, hbytes, hwhole⟩ := hdisk
    exact ⟨old, bytes, record', hbytes, hwhole hsynced ▸ hparse, hid⟩

theorem Site.readRecord_run (site : Site) (path : Path) (text : String) (cut : Nat) (fault : Option Ask) (s : Files) :
    ∃ fault' r,
    (world text cut).run (site.readRecord path) fault s = ⟨[s], fault', s, r⟩ ∧
      (fault ≠ some (.read path) → fault' = fault) ∧
      ∀ record, r = .ok record ↔ fault ≠ some (.read path) ∧
        ∃ f, s.live path = some f ∧ site.json.fromSlice f.bytes = .ok record := by
  rcases eq_or_ne fault (some (.read path)) with rfl | hne
  · exact ⟨none, _, World.run_query_self, fun h => absurd rfl h, fun _ => ⟨nofun, fun h => absurd rfl h.1⟩⟩
  · rw [Site.readRecord, ask, World.run_query_of_ne hne,
      show (world text cut).perform s (.read path) = (s, s.read path) from rfl, Files.read]
    cases hlive : s.live path with
    | none => exact ⟨fault, _, rfl, fun _ => rfl, fun _ => ⟨nofun, fun ⟨_, _, h, _⟩ => nomatch h⟩⟩
    | some f =>
        dsimp only
        cases hparse : site.json.fromSlice f.bytes with
        | error e =>
            refine ⟨fault, _, rfl, fun _ => rfl, fun record => ⟨nofun, ?_⟩⟩
            rintro ⟨-, f', ⟨⟩, h⟩
            rw [hparse] at h
            cases h
        | ok record' =>
            refine ⟨fault, _, rfl, fun _ => rfl, fun record => ⟨?_, ?_⟩⟩
            · rintro ⟨⟩
              exact ⟨hne, f, rfl, hparse⟩
            · rintro ⟨-, f', ⟨⟩, h⟩
              exact hparse.symm.trans h

theorem finalizeAdoption_movesCleanly_iff (site : Site) (record : AdoptRecord) (text : String) (cut : Nat)
    (fault : Option Ask) (before : Files) (hjson : site.json.RoundTrips { record with state := "final" }) :
    site.MovesCleanly .pending .final record before
        ((world text cut).run (site.finalizeAdoption record) fault before) ↔
      (site.Agrees record before → ¬site.Slips .pending .final record before fault) := by
  obtain ⟨bytes, hprint, hparse⟩ := hjson
  have htext : site.text { record with state := Phase.final.dir } = some (bytes ++ [10]) := by
    rw [Site.text, Phase.dir, hprint]
  obtain ⟨fault', r, hrun, hfault, hr⟩ :=
    site.readRecord_run (site.pendingPath record.sessionId) text cut fault before
  cases r with
  | error e =>
      rw [Site.finalizeAdoption, World.run_bind, hrun]
      refine iff_of_true movesCleanly_refused fun hagrees hslips => ?_
      obtain ⟨f, pending, hlive, hpending, -⟩ := hagrees
      -- the read is the step that failed
      have hread : fault = some (.read (site.pendingPath record.sessionId)) := by
        by_contra hne
        cases (hr pending).mpr ⟨hne, f, hlive, hpending⟩
      rcases hslips with ⟨h, -⟩ | ⟨h, -⟩ | ⟨h, -⟩
      · cases hread.symm.trans h
      · cases hread.symm.trans h
      · cases hread.symm.trans h
  | ok pending =>
      obtain ⟨hne, f, hlive, hpending⟩ := (hr pending).mp rfl
      obtain rfl := hfault hne
      by_cases hdisagrees : pending.state ≠ "pending" ∨ pending.sessionId ≠ record.sessionId ∨
          pending.identity ≠ record.identity
      · rw [Site.finalizeAdoption, World.run_bind, hrun]
        dsimp only
        rw [if_pos hdisagrees]
        refine iff_of_true movesCleanly_refused fun hagrees => ?_
        obtain ⟨f', pending', hlive', hpending', hstate, hsession, hidentity⟩ := hagrees
        cases hlive.symm.trans hlive'
        cases hpending.symm.trans hpending'
        exact absurd hdisagrees (by simp [hstate, hsession, hidentity])
      · have hagrees : site.Agrees record before := by
          simp only [not_or, not_not] at hdisagrees
          exact ⟨f, pending, hlive, hpending, hdisagrees⟩
        rw [forall_prop_of_true hagrees]
        refine movesCleanly_iff nofun htext hparse (World.leaves_bind.mpr ?_)
        rw [World.Leaves, hrun]
        refine ⟨fun s' hs' => List.mem_singleton.mp hs' ▸ .start, ?_⟩
        dsimp only
        rw [if_neg hdisagrees]
        exact site.move_leaves nofun site.durableRemove_takesBack htext rfl

/-- **Both moves of an adoption are clean exactly where the failing step does not slip.** -/
theorem phases_movesCleanly_iff (site : Site) (record : AdoptRecord) (text : String) (cut : Nat)
    (fault : Option Ask) (before : Files) (hpending : site.json.RoundTrips { record with state := "pending" })
    (hfinal : site.json.RoundTrips { record with state := "final" }) :
    (site.MovesCleanly .prepared .pending record before
        ((world text cut).run (site.registerPending record) fault before) ↔
      ¬site.Slips .prepared .pending record before fault) ∧
    (site.MovesCleanly .pending .final record before
        ((world text cut).run (site.finalizeAdoption record) fault before) ↔
      (site.Agrees record before → ¬site.Slips .pending .final record before fault)) :=
  ⟨registerPending_movesCleanly_iff site record text cut fault before hpending,
    finalizeAdoption_movesCleanly_iff site record text cut fault before hfinal⟩

/-! ### A session whose pending record stays behind -/

def bareOne : AdoptRecord where
  version := 1
  state := "prepared"
  name := "bare-one"
  sessionId := "uuid-1"
  identity := ⟨"uuid-1", 4242, 1, 0⟩
  cwd := none
  restartCommand := "qd resume 'bare-one'"
  preparedAtMs := 2

/-- The record in another state, as `serde_json` prints it. -/
def bareOneText (state : String) : Bytes :=
  encodeUtf8 ("\x7b\n  \"version\": 1,\n  \"state\": \"".toList ++ state.toList ++
    ("\",\n  \"name\": \"bare-one\",\n  \"sessionId\": \"uuid-1\",\n  \"identity\": \x7b\n" ++
      "    \"sessionId\": \"uuid-1\",\n    \"pid\": 4242,\n    \"startMs\": 1,\n    \"incarnation\": 0\n" ++
      "  \x7d,\n  \"cwd\": null,\n  \"restartCommand\": \"qd resume 'bare-one'\",\n" ++
      "  \"preparedAtMs\": 2\n\x7d").toList)

theorem bareOneText_inj (s t : String) : bareOneText s ++ [10] = bareOneText t ++ [10] ↔ s = t := by
  constructor
  · intro h
    have hchars := encodeUtf8_injective (List.append_cancel_right h)
    exact String.toList_inj.mp (List.append_cancel_left (List.append_cancel_right hchars))
  · rintro rfl
    rfl

def bareOneSite : Site where
  stateDir := "/state"
  sessionKey id := id
  processId := 7
  json :=
    { toVecPretty := fun record => .ok (bareOneText record.state)
      fromSlice := fun bytes =>
        match ["prepared", "pending", "final"].find? (fun state => bareOneText state ++ [10] = bytes) with
        | none => .error "expected value at line 1 column 1"
        | some state => .ok { bareOne with state := state } }

def bareOneFiles : Files where
  live path := if path = bareOneSite.preparedPath "uuid-1" then some ⟨bareOneText "prepared" ++ [10], true⟩ else none
  kept path := if path = bareOneSite.preparedPath "uuid-1" then some ⟨bareOneText "prepared" ++ [10], true⟩ else none

theorem bareOneSite_fromSlice {state : String} (h : state ∈ ["prepared", "pending", "final"]) :
    bareOneSite.json.fromSlice (bareOneText state ++ [10]) = .ok { bareOne with state := state } := by
  simp only [bareOneSite, find?_text bareOneText_inj h]

theorem bareOneSite_roundTrips : bareOneSite.json.RoundTrips { bareOne with state := "pending" } ∧
    bareOneSite.json.RoundTrips { bareOne with state := "final" } := by
  constructor
  · exact ⟨bareOneText "pending", rfl, bareOneSite_fromSlice (by decide)⟩
  · exact ⟨bareOneText "final", rfl, bareOneSite_fromSlice (by decide)⟩

/-- Where the sync of the pending directory fails, the call fails and the pending record stays. -/
theorem pending_record_stays : ¬bareOneSite.MovesCleanly .prepared .pending bareOne bareOneFiles
    ((world "Input/output error (os error 5)" 0).run (bareOneSite.registerPending bareOne)
      (some (.step (.syncDirectory .pending))) bareOneFiles) := by
  refine (not_congr (registerPending_movesCleanly_iff bareOneSite bareOne _ 0 _ bareOneFiles
    bareOneSite_roundTrips.1)).mpr (not_not.mpr (.inl ⟨rfl, ?_⟩))
  exact nofun

/-- Where the unlink of the prepared record fails, both moves are clean. -/
theorem phases_movesCleanly_failed_unlink :
    (bareOneSite.MovesCleanly .prepared .pending bareOne bareOneFiles
        ((world "Input/output error (os error 5)" 0).run (bareOneSite.registerPending bareOne)
          (some (.removeFile (bareOneSite.preparedPath "uuid-1"))) bareOneFiles) ↔
      ¬bareOneSite.Slips .prepared .pending bareOne bareOneFiles
        (some (.removeFile (bareOneSite.preparedPath "uuid-1")))) ∧
    (bareOneSite.MovesCleanly .pending .final bareOne bareOneFiles
        ((world "Input/output error (os error 5)" 0).run (bareOneSite.finalizeAdoption bareOne)
          (some (.removeFile (bareOneSite.preparedPath "uuid-1"))) bareOneFiles) ↔
      (bareOneSite.Agrees bareOne bareOneFiles → ¬bareOneSite.Slips .pending .final bareOne bareOneFiles
        (some (.removeFile (bareOneSite.preparedPath "uuid-1"))))) :=
  phases_movesCleanly_iff bareOneSite bareOne _ 0 _ bareOneFiles bareOneSite_roundTrips.1 bareOneSite_roundTrips.2

end QuorumDispatch.Adoption
