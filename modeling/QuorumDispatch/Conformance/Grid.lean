import Mathlib.Data.Char
import Mathlib.Data.List.Lex
import Mathlib.Data.List.Perm.Subperm
import QuorumDispatch.Conformance.Journal
import QuorumDispatch.Lib.Text

/-!
The release grid. Runs leave their artifacts in one directory, each in a file named after its run; the
grid is minted from those that are read back. It has a row for every cell that the manifest asks for,
with the best resolution that any artifact has for it.
-/

namespace QuorumDispatch.Conformance

open Lib

/-! ### Artifacts -/

def Lane.all : List Lane := [.claudeCode, .codex, .claudeCodeAcp, .opencode, .pi]

def Lane.id : Lane → String
  | claudeCode => "claude-code/mux-pane"
  | codex => "codex/daemon"
  | claudeCodeAcp => "claude-code/acp"
  | opencode => "opencode/acp"
  | pi => "pi/daemon"

structure ProofOfRun where
  commissionToken : String
  launchNonce : String
  commands : List String
  observed : String
deriving DecidableEq, Repr

inductive Outcome where
  | pass (proof : ProofOfRun)
  | fail (proof : ProofOfRun) (detail : String)
  | blocked (reason reentry : String)
  | notApplicable (reason : String)
deriving DecidableEq, Repr

inductive RunMode where
  | automated
  | scriptedManual
deriving DecidableEq, Repr

structure Observation where
  id : String
  lane : Lane
  cell : String
  runMode : RunMode
  outcome : Outcome
deriving DecidableEq, Repr

structure BoxCoverageRecord where
  run : String
  lane : Lane
  cell : String
  runnableOn : String
  whyNotHere : String
  establishedBy : String
  reentry : String
deriving DecidableEq, Repr

inductive CellResolution where
  | observed (obs : Observation)
  | coverage (record : BoxCoverageRecord)
deriving DecidableEq, Repr

structure CommissioningHeader where
  tuple : CommissioningTuple
  launchNonce : String

structure RunArtifact where
  header : CommissioningHeader
  timestamp : String
  grid : String → Option CellResolution

def RunArtifact.cellKey (lane : Lane) (cell : String) : String := lane.id ++ "::" ++ cell

/-! ### The manifest -/

inductive Applicability where
  | required
  | naPermitted (reason : String)
  | coveragePermitted
  | outOfDomain
deriving DecidableEq, Repr

def Applicability.inDomain : Applicability → Bool
  | outOfDomain => false
  | _ => true

def Applicability.isNaPermitted : Applicability → Bool
  | naPermitted _ => true
  | _ => false

/-- The cells, by their ids, and what may become of each on a lane. -/
structure Battery where
  cells : List String
  applicability? : String → String → Option Applicability

namespace Battery

variable (b : Battery)

def applicability (lane : Lane) (cell : String) : Applicability :=
  (b.applicability? lane.id cell).getD .outOfDomain

def applicableDomain : List (Lane × String) :=
  Lane.all.flatMap fun lane =>
    (b.cells.filter fun cell => (b.applicability lane cell).inDomain).map fun cell => (lane, cell)

def permits (lane : Lane) (cell : String) (resolution : CellResolution) : Bool :=
  match b.applicability lane cell, resolution with
  | .outOfDomain, _ => false
  | app, .observed obs =>
      match obs.outcome with
      | .notApplicable _ => app.isNaPermitted
      | _ => app.inDomain
  | .coveragePermitted, .coverage _ => true
  | _, .coverage _ => false

end Battery

/-! ### The grid -/

inductive CellStatus where
  | passed
  | notApplicableDeclared
  | coveredElsewhere
  | failed (detail : String)
  | blocked (reason : String)
  | missing
  | notPermitted
deriving DecidableEq, Repr

def CellStatus.isCertifiable : CellStatus → Bool
  | passed | notApplicableDeclared | coveredElsewhere => true
  | _ => false

structure GridRow where
  lane : Lane
  cell : String
  status : CellStatus
deriving DecidableEq, Repr

structure GridVerdict where
  certified : Bool
  rows : List GridRow
deriving DecidableEq, Repr

structure Latches where
  fail : Option String := none
  blocked : Option String := none
  na : Bool := false
  coverage : Bool := false
  notPermitted : Bool := false
  any : Bool := false
deriving DecidableEq, Repr

def Latches.status (saw : Latches) (app : Applicability) : CellStatus :=
  if saw.na ∧ app.isNaPermitted then .notApplicableDeclared
  else if saw.coverage ∧ app = .coveragePermitted then .coveredElsewhere
  else
    match saw.fail, saw.blocked with
    | some detail, _ => .failed detail
    | none, some reason => .blocked reason
    | none, none => if saw.notPermitted ∨ saw.any then .notPermitted else .missing

section Minting

variable (b : Battery) (lane : Lane) (cell : String)

/-- `classify`, from what was seen so far. A pass ends it. -/
def classifyFrom (saw : Latches) : List RunArtifact → CellStatus
  | [] => saw.status (b.applicability lane cell)
  | art :: rest =>
      match art.grid (RunArtifact.cellKey lane cell) with
      | none => classifyFrom saw rest
      | some resolution =>
          if b.permits lane cell resolution then
            match resolution with
            | .observed obs =>
                match obs.outcome with
                | .pass _ => .passed
                | .notApplicable _ => classifyFrom { saw with any := true, na := true } rest
                | .fail _ detail => classifyFrom { saw with any := true, fail := some detail } rest
                | .blocked reason _ => classifyFrom { saw with any := true, blocked := some reason } rest
            | .coverage _ => classifyFrom { saw with any := true, coverage := true } rest
          else classifyFrom { saw with any := true, notPermitted := true } rest

def classify (artifacts : List RunArtifact) : CellStatus := classifyFrom b lane cell {} artifacts

def mintGrid (artifacts : List RunArtifact) : GridVerdict :=
  let rows := b.applicableDomain.map fun (lane, cell) => ⟨lane, cell, classify b lane cell artifacts⟩
  { certified := rows.all (·.status.isCertifiable), rows := rows }

end Minting

/-! ### The directory of artifacts -/

/-- A file name of the run: `persist_artifact`'s stem. -/
def stem (run : String) : List Char :=
  run.toList.map fun c => if c.isAlphanum ∨ c = '-' ∨ c = '_' then c else '_'

def artifactSuffix : List Char := ".artifact.json".toList

def RunArtifact.fileName (art : RunArtifact) : List Char := stem art.header.tuple.run ++ artifactSuffix

/-- The files of a directory, by their names, if the directory is there. -/
abbrev RunDir := Option (List (List Char × Bytes))

/-- `serde_json` on artifacts. -/
structure ArtifactJson where
  toStringPretty : RunArtifact → Except String (List Char)
  fromStr : List Char → Except String RunArtifact

/-- `fs::write` into a directory. -/
def writeFile (name : List Char) (bytes : Bytes) (files : List (List Char × Bytes)) : List (List Char × Bytes) :=
  (name, bytes) :: files.filter (·.1 ≠ name)

def persistArtifact (json : ArtifactJson) (art : RunArtifact) (dir : RunDir) : Except String RunDir := do
  let text ← json.toStringPretty art
  pure (some (writeFile art.fileName (encodeUtf8 text) (dir.getD [])))

/-- The files in the order of their paths, each read and parsed; the first that is not an artifact ends
it. -/
def readArtifacts (json : ArtifactJson) : List (List Char × Bytes) → Except String (List RunArtifact)
  | [] => .ok []
  | (name, bytes) :: rest =>
      match decodeUtf8 bytes with
      | none => .error "stream did not contain valid UTF-8"
      | some text =>
          match json.fromStr text with
          | .error e => .error ("malformed conformance artifact " ++ String.ofList name ++ ": " ++ e)
          | .ok art => (readArtifacts json rest).map (art :: ·)

def readRunDir (json : ArtifactJson) : RunDir → Except String (List RunArtifact)
  | none => .ok []
  | some files =>
      readArtifacts json ((files.filter (artifactSuffix.isSuffixOf ·.1)).mergeSort fun x y => decide (x.1 ≤ y.1))

def persistAll (json : ArtifactJson) : List RunArtifact → RunDir → Except String RunDir
  | [], dir => .ok dir
  | art :: rest, dir => persistArtifact json art dir >>= persistAll json rest

/-! ### What certifies a cell -/

/-- A pass, a declared not-applicable or a coverage record, each of the last two where the manifest has
it. -/
def CellResolution.Satisfies (app : Applicability) : CellResolution → Prop
  | observed obs =>
      match obs.outcome with
      | .pass _ => True
      | .notApplicable _ => app.isNaPermitted = true
      | _ => False
  | coverage _ => app = .coveragePermitted

/-- Some artifact has a resolution of the cell that the manifest permits and that satisfies it. -/
def Resolved (b : Battery) (lane : Lane) (cell : String) (artifacts : List RunArtifact) : Prop :=
  ∃ art ∈ artifacts, ∃ resolution, art.grid (RunArtifact.cellKey lane cell) = some resolution ∧
    b.permits lane cell resolution = true ∧ resolution.Satisfies (b.applicability lane cell)

section Cells

variable {b : Battery} {lane : Lane} {cell : String} {art : RunArtifact} {rest : List RunArtifact}
  {resolution : CellResolution}

theorem resolved_cons_of_none (h : art.grid (RunArtifact.cellKey lane cell) = none) :
    Resolved b lane cell (art :: rest) ↔ Resolved b lane cell rest := by
  simp [Resolved, h]

theorem resolved_cons_of_some (h : art.grid (RunArtifact.cellKey lane cell) = some resolution) :
    Resolved b lane cell (art :: rest) ↔
      (b.permits lane cell resolution = true ∧ resolution.Satisfies (b.applicability lane cell)) ∨
        Resolved b lane cell rest := by
  simp [Resolved, h]

def Latches.Satisfied (saw : Latches) (app : Applicability) : Prop :=
  (saw.na = true ∧ app.isNaPermitted = true) ∨ (saw.coverage = true ∧ app = .coveragePermitted)

theorem Latches.status_isCertifiable (saw : Latches) (app : Applicability) :
    (saw.status app).isCertifiable = true ↔ saw.Satisfied app := by
  rw [Latches.status, Latches.Satisfied]
  split
  case isTrue hna => exact iff_of_true rfl (.inl hna)
  case isFalse hna =>
    rw [or_iff_right hna]
    split
    case isTrue hcoverage => exact iff_of_true rfl hcoverage
    case isFalse hcoverage =>
      refine iff_of_false ?_ hcoverage
      split
      · nofun
      · nofun
      · split <;> nofun

theorem classifyFrom_isCertifiable (artifacts : List RunArtifact) (saw : Latches) :
    (classifyFrom b lane cell saw artifacts).isCertifiable = true ↔
      Resolved b lane cell artifacts ∨ saw.Satisfied (b.applicability lane cell) := by
  induction artifacts generalizing saw with
  | nil =>
      rw [classifyFrom, Latches.status_isCertifiable]
      exact (or_iff_right (by rintro ⟨_, h, -⟩; cases h)).symm
  | cons art rest ih =>
      rw [classifyFrom]
      cases hgrid : art.grid (RunArtifact.cellKey lane cell) with
      | none => rw [resolved_cons_of_none hgrid, ← ih]
      | some resolution =>
          rw [resolved_cons_of_some hgrid]
          by_cases hpermits : b.permits lane cell resolution = true
          case neg =>
            dsimp only
            rw [if_neg hpermits, ih, or_iff_right (a := _ ∧ _) fun h => hpermits h.1]
            rfl
          case pos =>
            dsimp only
            rw [if_pos hpermits, and_iff_right hpermits]
            cases resolution with
            | coverage record =>
                dsimp only
                rw [ih]
                simp only [Latches.Satisfied, CellResolution.Satisfies]
                tauto
            | observed obs =>
                dsimp only
                cases hout : obs.outcome with
                | pass proof => exact iff_of_true rfl (.inl (.inl (by rw [CellResolution.Satisfies, hout]; trivial)))
                | notApplicable reason =>
                    dsimp only
                    rw [ih]
                    simp only [Latches.Satisfied, CellResolution.Satisfies, hout]
                    tauto
                | fail proof detail =>
                    dsimp only
                    rw [ih]
                    simp only [Latches.Satisfied, CellResolution.Satisfies, hout, false_or]
                | blocked reason reentry =>
                    dsimp only
                    rw [ih]
                    simp only [Latches.Satisfied, CellResolution.Satisfies, hout, false_or]

theorem classify_isCertifiable {artifacts : List RunArtifact} :
    (classify b lane cell artifacts).isCertifiable = true ↔ Resolved b lane cell artifacts := by
  rw [classify, classifyFrom_isCertifiable]
  exact or_iff_left (by simp [Latches.Satisfied])

theorem Resolved.perm {xs ys : List RunArtifact} (h : Resolved b lane cell xs) (hperm : xs.Perm ys) :
    Resolved b lane cell ys := by
  obtain ⟨art, hart, hres⟩ := h
  exact ⟨art, hperm.subset hart, hres⟩

theorem mintGrid_certified {artifacts : List RunArtifact} : (mintGrid b artifacts).certified = true ↔
    ∀ p ∈ b.applicableDomain, Resolved b p.1 p.2 artifacts := by
  simp only [mintGrid, List.all_map, List.all_eq_true, Function.comp_apply, classify_isCertifiable]

theorem mintGrid_rows {artifacts : List RunArtifact} :
    (mintGrid b artifacts).rows.map (fun row => (row.lane, row.cell)) = b.applicableDomain := by
  rw [mintGrid, List.map_map]
  exact List.map_id _

end Cells

/-! ### What is read back -/

def ArtifactJson.RoundTrips (json : ArtifactJson) (art : RunArtifact) : Prop :=
  ∃ text, json.toStringPretty art = .ok text ∧ json.fromStr text = .ok art

def artifactFiles (dir : RunDir) : List (List Char × Bytes) :=
  (dir.getD []).filter (artifactSuffix.isSuffixOf ·.1)

def ArtifactJson.file (json : ArtifactJson) (art : RunArtifact) : List Char × Bytes :=
  (art.fileName, encodeUtf8 (json.toStringPretty art).toOption.toList.flatten)

section Reading

variable {json : ArtifactJson} {art : RunArtifact} {artifacts : List RunArtifact} {dir dir' : RunDir}

theorem ArtifactJson.RoundTrips.file_eq {text : List Char} (h : json.toStringPretty art = .ok text) :
    json.file art = (art.fileName, encodeUtf8 text) := by
  rw [file, h]
  simp [Except.toOption]

theorem isSuffixOf_fileName : artifactSuffix.isSuffixOf art.fileName = true :=
  List.isSuffixOf_iff_suffix.mpr (List.suffix_append ..)

theorem artifactFiles_persistArtifact (hart : json.RoundTrips art)
    (h : persistArtifact json art dir = .ok dir') :
    artifactFiles dir' = json.file art :: (artifactFiles dir).filter (·.1 ≠ art.fileName) := by
  obtain ⟨text, htext, -⟩ := hart
  rw [persistArtifact, htext] at h
  obtain rfl := Except.ok.inj h
  rw [ArtifactJson.RoundTrips.file_eq htext]
  simp only [artifactFiles, Option.getD_some, writeFile, List.filter_cons, isSuffixOf_fileName, if_true,
    List.filter_filter, Bool.and_comm]

theorem exists_persistAll (hjson : ∀ art ∈ artifacts, json.RoundTrips art) (dir : RunDir) :
    ∃ dir', persistAll json artifacts dir = .ok dir' := by
  induction artifacts generalizing dir with
  | nil => exact ⟨dir, rfl⟩
  | cons art rest ih =>
      obtain ⟨text, htext, -⟩ := hjson art List.mem_cons_self
      obtain ⟨dir', hdir'⟩ := ih (fun a ha => hjson a (List.mem_cons_of_mem _ ha))
        (some (writeFile art.fileName (encodeUtf8 text) (dir.getD [])))
      exact ⟨dir', by rw [persistAll, persistArtifact, htext]; exact hdir'⟩

theorem persistAll_cons (h : persistAll json (art :: artifacts) dir = .ok dir') :
    ∃ dir₁, persistArtifact json art dir = .ok dir₁ ∧ persistAll json artifacts dir₁ = .ok dir' := by
  rw [persistAll] at h
  cases hart : persistArtifact json art dir with
  | error e => rw [hart] at h; cases h
  | ok dir₁ => exact ⟨dir₁, rfl, by rwa [hart] at h⟩

theorem artifactFiles_persistAll (hjson : ∀ art ∈ artifacts, json.RoundTrips art)
    (hnames : (artifacts.map RunArtifact.fileName).Nodup)
    (hfresh : ∀ art ∈ artifacts, ∀ f ∈ artifactFiles dir, f.1 ≠ art.fileName)
    (h : persistAll json artifacts dir = .ok dir') :
    artifactFiles dir' = artifacts.reverse.map json.file ++ artifactFiles dir := by
  induction artifacts generalizing dir with
  | nil =>
      obtain rfl := Except.ok.inj h
      rfl
  | cons art rest ih =>
      obtain ⟨dir₁, hart, hrest⟩ := persistAll_cons h
      rw [List.map_cons, List.nodup_cons] at hnames
      have hfiles := artifactFiles_persistArtifact (hjson art List.mem_cons_self) hart
      have hall : ∀ f ∈ artifactFiles dir, decide (f.1 ≠ art.fileName) = true :=
        fun f hf => decide_eq_true (hfresh art List.mem_cons_self f hf)
      rw [List.filter_eq_self.mpr hall] at hfiles
      rw [ih (fun a ha => hjson a (List.mem_cons_of_mem _ ha)) hnames.2 ?_ hrest, hfiles]
      · simp
      · intro a ha f hf
        rw [hfiles] at hf
        rcases List.mem_cons.mp hf with rfl | hf
        · exact fun heq => hnames.1 (List.mem_map.mpr ⟨a, ha, heq.symm⟩)
        · exact hfresh a (List.mem_cons_of_mem _ ha) f hf

theorem nodup_persistAll (hjson : ∀ art ∈ artifacts, json.RoundTrips art)
    (hnodup : ((artifactFiles dir).map Prod.fst).Nodup) (h : persistAll json artifacts dir = .ok dir') :
    ((artifactFiles dir').map Prod.fst).Nodup ∧
      (artifactFiles dir').map Prod.fst ⊆
        artifacts.map RunArtifact.fileName ++ (artifactFiles dir).map Prod.fst := by
  induction artifacts generalizing dir with
  | nil =>
      obtain rfl := Except.ok.inj h
      exact ⟨hnodup, List.Subset.refl _⟩
  | cons art rest ih =>
      obtain ⟨dir₁, hart, hrest⟩ := persistAll_cons h
      have hfiles := artifactFiles_persistArtifact (hjson art List.mem_cons_self) hart
      have hkept : ((artifactFiles dir).filter (·.1 ≠ art.fileName)).map Prod.fst ⊆
          (artifactFiles dir).map Prod.fst := List.map_subset _ List.filter_sublist.subset
      have hnodup₁ : ((artifactFiles dir₁).map Prod.fst).Nodup := by
        rw [hfiles, List.map_cons, List.nodup_cons]
        refine ⟨fun hmem => ?_, hnodup.sublist (List.filter_sublist.map _)⟩
        obtain ⟨f, hf, heq⟩ := List.mem_map.mp hmem
        exact of_decide_eq_true (List.mem_filter.mp hf).2 heq
      obtain ⟨hnodup', hsubset⟩ := ih (fun a ha => hjson a (List.mem_cons_of_mem _ ha)) hnodup₁ hrest
      refine ⟨hnodup', fun name hname => ?_⟩
      rcases List.mem_append.mp (hsubset hname) with hname | hname
      · exact List.mem_append_left _ (List.mem_cons_of_mem _ hname)
      · rw [hfiles, List.map_cons] at hname
        rcases List.mem_cons.mp hname with rfl | hname
        · exact List.mem_append_left _ List.mem_cons_self
        · exact List.mem_append_right _ (hkept hname)

theorem readRunDir_eq : readRunDir json dir =
    readArtifacts json ((artifactFiles dir).mergeSort fun x y => decide (x.1 ≤ y.1)) := by
  cases dir with
  | none => simp [readRunDir, artifactFiles, readArtifacts]
  | some files => rfl

theorem readArtifacts_file (hjson : ∀ art ∈ artifacts, json.RoundTrips art) :
    readArtifacts json (artifacts.map json.file) = .ok artifacts := by
  induction artifacts with
  | nil => rfl
  | cons art rest ih =>
      obtain ⟨text, htext, hparse⟩ := hjson art List.mem_cons_self
      rw [List.map_cons, ArtifactJson.RoundTrips.file_eq htext, readArtifacts, decodeUtf8_encodeUtf8]
      dsimp only
      rw [hparse, ih fun a ha => hjson a (List.mem_cons_of_mem _ ha)]
      rfl

theorem length_readArtifacts {files : List (List Char × Bytes)} (h : readArtifacts json files = .ok artifacts) :
    artifacts.length = files.length := by
  induction files generalizing artifacts with
  | nil =>
      obtain rfl := Except.ok.inj h
      rfl
  | cons file rest ih =>
      rw [readArtifacts] at h
      split at h
      · cases h
      · split at h
        · cases h
        · cases hrest : readArtifacts json rest with
          | error e => rw [hrest] at h; cases h
          | ok arts =>
              rw [hrest] at h
              obtain rfl := Except.ok.inj h
              rw [List.length_cons, List.length_cons, ih hrest]

theorem readRunDir_persistAll (hjson : ∀ art ∈ artifacts, json.RoundTrips art)
    (hnames : (artifacts.map RunArtifact.fileName).Nodup) (hfresh : artifactFiles dir = [])
    (h : persistAll json artifacts dir = .ok dir') :
    ∃ read, readRunDir json dir' = .ok read ∧ read.Perm artifacts := by
  have hfiles := artifactFiles_persistAll hjson hnames (by simp [hfresh]) h
  rw [hfresh, List.append_nil] at hfiles
  refine ⟨artifacts.reverse.mergeSort fun x y => decide ((json.file x).1 ≤ (json.file y).1), ?_, ?_⟩
  · rw [readRunDir_eq, hfiles, ← List.map_mergeSort (f := json.file) fun _ _ _ _ => rfl]
    refine readArtifacts_file fun art hart => hjson art ?_
    exact List.mem_reverse.mp ((List.mergeSort_perm ..).subset hart)
  · exact (List.mergeSort_perm ..).trans artifacts.reverse_perm

theorem nodup_fileName_of_readRunDir (hjson : ∀ art ∈ artifacts, json.RoundTrips art)
    (hfresh : artifactFiles dir = []) (h : persistAll json artifacts dir = .ok dir') {read : List RunArtifact}
    (hread : readRunDir json dir' = .ok read) (hperm : read.Perm artifacts) :
    (artifacts.map RunArtifact.fileName).Nodup := by
  obtain ⟨hnodup, hsubset⟩ := nodup_persistAll hjson (by simp [hfresh]) h
  rw [hfresh, List.map_nil, List.append_nil] at hsubset
  have hlength : (artifacts.map RunArtifact.fileName).length ≤ ((artifactFiles dir').map Prod.fst).length := by
    rw [readRunDir_eq] at hread
    rw [List.length_map, List.length_map, ← hperm.length_eq, length_readArtifacts hread, List.length_mergeSort]
  have hperm' := (List.subperm_of_subset hnodup hsubset).perm_of_length_le hlength
  exact hperm'.nodup_iff.mp hnodup

end Reading

/-! ### The grid of what was deposited -/

theorem nodup_fileName_iff {artifacts : List RunArtifact} : (artifacts.map RunArtifact.fileName).Nodup ↔
    (artifacts.map fun art => stem art.header.tuple.run).Nodup := by
  rw [show RunArtifact.fileName = (· ++ artifactSuffix) ∘ fun art => stem art.header.tuple.run from rfl,
    ← List.map_map]
  exact List.nodup_map_iff (List.append_left_injective artifactSuffix)

structure MintedFromAll (json : ArtifactJson) (b : Battery) (dir : RunDir) (artifacts : List RunArtifact) :
    Prop where
  read : ∀ order : List RunArtifact, order.Perm artifacts → ∃ dir' read, persistAll json order dir = .ok dir' ∧
    readRunDir json dir' = .ok read ∧ read.Perm artifacts
  rows : (mintGrid b artifacts).rows.map (fun row => (row.lane, row.cell)) = b.applicableDomain
  certified : (mintGrid b artifacts).certified = true ↔
    b.applicableDomain ≠ [] ∧ ∀ p ∈ b.applicableDomain, Resolved b p.1 p.2 artifacts
  order : ∀ order : List RunArtifact, order.Perm artifacts →
    (mintGrid b order).certified = (mintGrid b artifacts).certified

theorem mintGrid_certified_perm {b : Battery} {xs ys : List RunArtifact} (h : xs.Perm ys) :
    (mintGrid b xs).certified = (mintGrid b ys).certified := by
  rw [Bool.eq_iff_iff, mintGrid_certified, mintGrid_certified]
  exact forall₂_congr fun p _ => ⟨fun hres => hres.perm h, fun hres => hres.perm h.symm⟩

/-- **The grid is minted from all that was deposited exactly if no two runs share a file name and the
manifest asks for a cell.** -/
theorem mintedFromAll_iff (json : ArtifactJson) (b : Battery) (dir : RunDir) (artifacts : List RunArtifact)
    (hjson : ∀ art ∈ artifacts, json.RoundTrips art) (hfresh : artifactFiles dir = []) :
    MintedFromAll json b dir artifacts ↔
      (artifacts.map fun art => stem art.header.tuple.run).Nodup ∧ b.applicableDomain ≠ [] := by
  constructor
  · intro h
    obtain ⟨dir', read, hpersist, hread, hperm⟩ := h.read artifacts (.refl _)
    refine ⟨nodup_fileName_iff.mp (nodup_fileName_of_readRunDir hjson hfresh hpersist hread hperm), fun hnil => ?_⟩
    -- an empty grid is certified
    have hcertified : (mintGrid b artifacts).certified = true := mintGrid_certified.mpr (by simp [hnil])
    exact (h.certified.mp hcertified).1 hnil
  · rintro ⟨hstems, hdomain⟩
    refine ⟨fun order horder => ?_, mintGrid_rows, ?_, fun order horder => mintGrid_certified_perm horder⟩
    · have hjson' : ∀ art ∈ order, json.RoundTrips art := fun art hart => hjson art (horder.subset hart)
      have hnames := (horder.map RunArtifact.fileName).nodup_iff.mpr (nodup_fileName_iff.mpr hstems)
      obtain ⟨dir', hdir'⟩ := exists_persistAll hjson' dir
      obtain ⟨read, hread, hperm⟩ := readRunDir_persistAll hjson' hnames hfresh hdir'
      exact ⟨dir', read, hdir', hread, hperm.trans horder⟩
    · rw [mintGrid_certified, and_iff_right hdomain]

/-! ### Two runs with one file name -/

def bareArtifact (run : String) : RunArtifact where
  header :=
    { tuple :=
        { run := run, laneScope := {.codex}, boxId := "box-1", releaseCommit := "abc", manifestDigest := "sha256:0",
          aggregationVersion := "v1", runKind := .evidence, sequence := 1, commissioningIdentity := "quill",
          token := "tok" }
      launchNonce := "nonce" }
  timestamp := "2026-01-01T00:00:00Z"
  grid _ := none

/-- The artifact as `serde_json` prints it. -/
def bareArtifactText (run : String) : List Char :=
  "\x7b\n  \"header\": \x7b\n    \"tuple\": \x7b\n      \"run\": \"".toList ++ run.toList ++ ("\",\n" ++
    "      \"lane_scope\": [\n        \"codex/daemon\"\n      ],\n      \"box_id\": \"box-1\",\n" ++
    "      \"release_commit\": \"abc\",\n      \"manifest_digest\": \"sha256:0\",\n" ++
    "      \"aggregation_version\": \"v1\",\n      \"run_kind\": \"evidence\",\n      \"sequence\": 1,\n" ++
    "      \"commissioning_identity\": \"quill\",\n      \"token\": \"tok\"\n    \x7d,\n" ++
    "    \"launch_nonce\": \"nonce\"\n  \x7d,\n  \"timestamp\": \"2026-01-01T00:00:00Z\",\n" ++
    "  \"grid\": \x7b\x7d\n\x7d").toList

def bareJson : ArtifactJson where
  toStringPretty art := .ok (bareArtifactText art.header.tuple.run)
  fromStr text :=
    match ["a.b", "a_b"].find? (fun run => bareArtifactText run = text) with
    | none => .error "expected value at line 1 column 1"
    | some run => .ok (bareArtifact run)

def oneCell : Battery where
  cells := ["d1-teardown"]
  applicability? lane cell := if lane = "codex/daemon" ∧ cell = "d1-teardown" then some .required else none

theorem bareArtifactText_inj (r s : String) : bareArtifactText r = bareArtifactText s ↔ r = s := by
  constructor
  · intro h
    exact String.toList_inj.mp (List.append_cancel_left (List.append_cancel_right h))
  · rintro rfl
    rfl

theorem bareJson_fromStr {run : String} (h : run ∈ ["a.b", "a_b"]) :
    bareJson.fromStr (bareArtifactText run) = .ok (bareArtifact run) := by
  simp only [bareJson, find?_text bareArtifactText_inj h]

theorem bareJson_roundTrips : ∀ art ∈ [bareArtifact "a.b", bareArtifact "a_b"], bareJson.RoundTrips art := by
  intro art hart
  rcases List.mem_cons.mp hart with rfl | hart
  · exact ⟨bareArtifactText "a.b", rfl, bareJson_fromStr (by decide)⟩
  · obtain rfl := List.mem_singleton.mp hart
    exact ⟨bareArtifactText "a_b", rfl, bareJson_fromStr (by decide)⟩

/-- The runs `a.b` and `a_b` leave one file, and one of them is not read back. -/
theorem deposit_overwritten : ¬MintedFromAll bareJson oneCell none [bareArtifact "a.b", bareArtifact "a_b"] := by
  intro h
  obtain ⟨dir', read, hpersist, hread, hperm⟩ := h.read _ (.refl _)
  exact absurd (nodup_fileName_of_readRunDir bareJson_roundTrips rfl hpersist hread hperm) (by decide)

theorem mintedFromAll_iff_bare :
    MintedFromAll bareJson oneCell none [bareArtifact "a.b", bareArtifact "a_b"] ↔
      ([bareArtifact "a.b", bareArtifact "a_b"].map fun art => stem art.header.tuple.run).Nodup ∧
        oneCell.applicableDomain ≠ [] :=
  mintedFromAll_iff bareJson oneCell none _ bareJson_roundTrips rfl

end QuorumDispatch.Conformance
