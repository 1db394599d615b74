import Mathlib.Data.List.Nodup
import Mathlib.Logic.Function.Basic
import QuorumDispatch.Lib.Json

/-!
The rows of the registry as JSON. A row is read field by field: a value of another type leaves its
own field absent, and unknown keys are passed over. It is written whole, from what was read.

So a status update keeps of a row what the record has fields for, and no more.
-/

namespace QuorumDispatch.Registry

open Lib

structure RegistryEntry where
  pid : Option Int64 := none
  sessionId : Option String := none
  cwd : Option String := none
  startedAt : Option Int64 := none
  updatedAt : Option Int64 := none
  status : Option String := none
  name : Option String := none
  version : Option String := none
  kind : Option String := none
  entrypoint : Option String := none
  backend : Option String := none
  spawnedBy : Option String := none
  provider : Option String := none
  endpoint : Option String := none
  transport : Option String := none
  structuredSendIssued : Option Bool := none
  hosting : Option String := none
  harnessEndpoint : Option String := none
deriving DecidableEq, Repr

/-- `Value::as_bool`. -/
def asBool : Json → Option Bool
  | .bool b => some b
  | _ => none

/-! ### Reading -/

/-- `from_value::<Option<T>>`: `null` is no value, and no error. -/
def optional {α : Type} (read : Json → Option α) : Json → Option (Option α)
  | .null => some none
  | j => (read j).map some

/-- The value of a field; it is absent without the key, and if it degrades. -/
def field {α : Type} (read : Json → Option α) (j : Json) (key : String) : Option α :=
  ((j.get key).bind (optional read)).join

def degrades {α : Type} (read : Json → Option α) (j : Json) (key : String) : Bool :=
  (j.get key).any fun v => (optional read v).isNone

def readFields (j : Json) : RegistryEntry where
  pid := field Json.asI64 j "pid"
  sessionId := field Json.asStr j "sessionId"
  cwd := field Json.asStr j "cwd"
  startedAt := field Json.asI64 j "startedAt"
  updatedAt := field Json.asI64 j "updatedAt"
  status := field Json.asStr j "status"
  name := field Json.asStr j "name"
  version := field Json.asStr j "version"
  kind := field Json.asStr j "kind"
  entrypoint := field Json.asStr j "entrypoint"
  backend := field Json.asStr j "backend"
  spawnedBy := field Json.asStr j "spawnedBy"
  provider := field Json.asStr j "provider"
  endpoint := field Json.asStr j "endpoint"
  transport := field Json.asStr j "transport"
  structuredSendIssued := field asBool j "structuredSendIssued"
  hosting := field Json.asStr j "hosting"
  harnessEndpoint := field Json.asStr j "harnessEndpoint"

/-- The names of the fields that degrade, in the order in which they are read. -/
def degraded (j : Json) : List String :=
  [(degrades Json.asI64 j "pid", "pid"),
    (degrades Json.asStr j "sessionId", "sessionId"),
    (degrades Json.asStr j "cwd", "cwd"),
    (degrades Json.asI64 j "startedAt", "startedAt"),
    (degrades Json.asI64 j "updatedAt", "updatedAt"),
    (degrades Json.asStr j "status", "status"),
    (degrades Json.asStr j "name", "name"),
    (degrades Json.asStr j "version", "version"),
    (degrades Json.asStr j "kind", "kind"),
    (degrades Json.asStr j "entrypoint", "entrypoint"),
    (degrades Json.asStr j "backend", "backend"),
    (degrades Json.asStr j "spawnedBy", "spawnedBy"),
    (degrades Json.asStr j "provider", "provider"),
    (degrades Json.asStr j "endpoint", "endpoint"),
    (degrades Json.asStr j "transport", "transport"),
    (degrades asBool j "structuredSendIssued", "structuredSendIssued"),
    (degrades Json.asStr j "hosting", "hosting"),
    (degrades Json.asStr j "harnessEndpoint", "harnessEndpoint")].filterMap
      fun (d, name) => if d then some name else none

/-- `from_value`: only an object is a row. -/
def fromValue : Json → Option (RegistryEntry × List String)
  | .obj entries => some (readFields (.obj entries), degraded (.obj entries))
  | _ => none

/-! ### Writing -/

inductive FieldType where
  | i64
  | string
  | bool
deriving DecidableEq, Repr

/-- A field as it is written: under its key, and not at all without a value. -/
structure Column where
  key : String
  type : FieldType
  value : RegistryEntry → Option Json

def i64Column (key : String) (get : RegistryEntry → Option Int64) : Column :=
  { key, type := .i64, value := fun e => (get e).map fun n => .num n.toInt }

def stringColumn (key : String) (get : RegistryEntry → Option String) : Column :=
  { key, type := .string, value := fun e => (get e).map .str }

def boolColumn (key : String) (get : RegistryEntry → Option Bool) : Column :=
  { key, type := .bool, value := fun e => (get e).map .bool }

def columns : List Column :=
  [i64Column "pid" (·.pid),
    stringColumn "sessionId" (·.sessionId),
    stringColumn "cwd" (·.cwd),
    i64Column "startedAt" (·.startedAt),
    i64Column "updatedAt" (·.updatedAt),
    stringColumn "status" (·.status),
    stringColumn "name" (·.name),
    stringColumn "version" (·.version),
    stringColumn "kind" (·.kind),
    stringColumn "entrypoint" (·.entrypoint),
    stringColumn "backend" (·.backend),
    stringColumn "spawnedBy" (·.spawnedBy),
    stringColumn "provider" (·.provider),
    stringColumn "endpoint" (·.endpoint),
    stringColumn "transport" (·.transport),
    boolColumn "structuredSendIssued" (·.structuredSendIssued),
    stringColumn "hosting" (·.hosting),
    stringColumn "harnessEndpoint" (·.harnessEndpoint)]

def RegistryEntry.toValue (e : RegistryEntry) : Json :=
  .obj (columns.filterMap fun c => (c.value e).map fun v => (c.key, v))

/-! ### Files -/

/-- The files `<pid>.json`. -/
abbrev RowTexts : Type := Int64 → Option Bytes

section Files

variable (serde : SerdeJson) (pretty : Json → List Char)

def parseFile (bytes : Option Bytes) : Option (RegistryEntry × List String) :=
  (bytes.bind serde.fromSlice).bind fromValue

def readEntry (files : RowTexts) (pid : Int64) : Option RegistryEntry :=
  (parseFile serde (files pid)).map Prod.fst

/-- `write_entry`: the pid of the row names the file; without one nothing is written. -/
def writeRow (entry : RegistryEntry) : Option (Int64 × Bytes) :=
  entry.pid.map fun pid => (pid, encodeUtf8 (pretty entry.toValue))

inductive StatusWriteOutcome where
  | written
  | rejected (onDiskStartedAt : Option Int64)
  | noRow
  | failed
deriving DecidableEq, Repr

def otherIncarnation (onDisk expected : Option Int64) : Option Int64 :=
  match onDisk, expected with
  | some disk, some expected => if disk ≠ expected then some disk else none
  | _, _ => none

/-- The outcome, and the write that it comes with: the pid that names the file, and its text. -/
def setStatus (files : RowTexts) (pid : Int64) (expectedStartedAt : Option Int64) (status : String)
    (nowMs : Int64) : StatusWriteOutcome × Option (Int64 × Bytes) :=
  match readEntry serde files pid with
  | none => (.noRow, none)
  | some entry =>
      match otherIncarnation entry.startedAt expectedStartedAt with
      | some disk => (.rejected (some disk), none)
      | none =>
          match writeRow pretty { entry with status := some status, updatedAt := some nowMs } with
          | some write => (.written, some write)
          | none => (.failed, none)

end Files

/-! ### What the fields keep -/

def FieldType.has : FieldType → Json → Bool
  | .i64, j => j.asI64.isSome
  | .string, j => j.asStr.isSome
  | .bool, j => (asBool j).isSome

def Column.degrades (c : Column) (j : Json) : Bool :=
  (j.get c.key).any fun v =>
    match v with
    | .null => false
    | v => !c.type.has v

theorem asI64_eq_some {v : Json} {n : Int64} (h : v.asI64 = some n) : v = .num n.toInt := by
  unfold Json.asI64 at h
  split at h
  next m =>
    split at h
    next hrange =>
      obtain rfl := Option.some.inj h
      rw [Int64.toInt_ofInt_of_le hrange.1 hrange.2]
    next => cases h
  next => cases h

theorem asStr_eq_some {v : Json} {s : String} (h : v.asStr = some s) : v = .str s := by
  cases v <;> cases h
  rfl

theorem asBool_eq_some {v : Json} {b : Bool} (h : asBool v = some b) : v = .bool b := by
  cases v <;> cases h
  rfl

theorem field_map {α : Type} {read : Json → Option α} {write : α → Json} (hnull : read .null = none)
    (hread : ∀ {v x}, read v = some x → v = write x) (j : Json) (key : String) :
    (field read j key).map write = (j.get key).filter fun v => (read v).isSome := by
  unfold field
  cases hv : j.get key with
  | none => rfl
  | some v =>
      rw [Option.bind_some]
      cases hx : read v with
      | none =>
          have hfilter : (some v).filter (fun v => (read v).isSome) = none := by
            simp [Option.filter, hx]
          rw [hfilter]
          unfold optional
          split
          · rfl
          · rw [hx]
            rfl
      | some x =>
          have hfilter : (some v).filter (fun v => (read v).isSome) = some v := by
            simp [Option.filter, hx]
          have hsome : optional read v = some (some x) := by
            unfold optional
            split
            · exact absurd (hnull.symm.trans hx) nofun
            · rw [hx]
              rfl
          rw [hfilter, hsome, hread hx]
          rfl

theorem degrades_eq {α : Type} (read : Json → Option α) (j : Json) (key : String) :
    degrades read j key = (j.get key).any fun v =>
      match v with
      | .null => false
      | v => !(read v).isSome := by
  unfold degrades
  congr
  funext v
  unfold optional
  split
  · rfl
  · cases read v <;> rfl

/-- **A field keeps what is of its type**, and depends on its own key only. -/
theorem value_readFields (j : Json) :
    ∀ c ∈ columns, c.value (readFields j) = (j.get c.key).filter c.type.has := by
  have hi64 := fun key => @field_map _ Json.asI64 (fun n => .num n.toInt) rfl asI64_eq_some j key
  have hstr := fun key => @field_map _ Json.asStr .str rfl asStr_eq_some j key
  have hbool := fun key => @field_map _ asBool .bool rfl asBool_eq_some j key
  simp only [columns, List.forall_mem_cons]
  exact ⟨hi64 _, hstr _, hstr _, hi64 _, hi64 _, hstr _, hstr _, hstr _, hstr _, hstr _, hstr _, hstr _,
    hstr _, hstr _, hstr _, hbool _, hstr _, hstr _, List.forall_mem_nil _⟩

theorem degraded_eq (j : Json) :
    degraded j = (columns.filter (·.degrades j)).map Column.key := by
  have hpairs : ∀ cs : List Column,
      (cs.map fun c => (c.degrades j, c.key)).filterMap
          (fun x : Bool × String => if x.1 then some x.2 else none) =
        (cs.filter (·.degrades j)).map Column.key := by
    intro cs
    induction cs with
    | nil => rfl
    | cons c cs ih =>
        rw [List.map_cons, List.filterMap_cons, List.filter_cons, ih]
        cases c.degrades j <;> rfl
  rw [← hpairs columns, degraded]
  simp only [degrades_eq]
  rfl

theorem nodup_keys : (columns.map Column.key).Nodup := by decide

/-! ### What is written -/

theorem get_filterMap {ι : Type} {cs : List ι} {key : ι → String} (value : ι → Option Json)
    (hnodup : (cs.map key).Nodup) {c : ι} (hc : c ∈ cs) :
    (Json.obj (cs.filterMap fun c => (value c).map fun v => (key c, v))).get (key c) = value c := by
  induction cs with
  | nil => exact absurd hc List.not_mem_nil
  | cons d cs ih =>
      rw [List.map_cons, List.nodup_cons] at hnodup
      have hkeys : ((cs.filterMap fun c => (value c).map fun v => (key c, v)).map Prod.fst) ⊆
          cs.map key := by
        intro k hk
        obtain ⟨⟨_, v⟩, hmem, rfl⟩ := List.mem_map.mp hk
        obtain ⟨c', hc', hsome⟩ := List.mem_filterMap.mp hmem
        obtain ⟨w, -, heq⟩ := Option.map_eq_some_iff.mp hsome
        exact List.mem_map.mpr ⟨c', hc', congrArg Prod.fst heq⟩
      rcases List.mem_cons.mp hc with rfl | hc
      · have hrest := Json.get_obj_of_notMem (mt (@hkeys _) hnodup.1)
        cases hv : value c with
        | none => rw [List.filterMap_cons_none (by rw [hv]; rfl), hrest]
        | some v =>
            rw [List.filterMap_cons_some (by rw [hv]; rfl), Json.get_obj_cons, hrest, if_pos rfl]
            rfl
      · have hne : key d ≠ key c := fun h => hnodup.1 (h ▸ List.mem_map_of_mem hc)
        cases hv : value d with
        | none =>
            rw [List.filterMap_cons_none (by rw [hv]; rfl)]
            exact ih hnodup.2 hc
        | some v =>
            rw [List.filterMap_cons_some (by rw [hv]; rfl), Json.get_obj_cons, if_neg hne,
              Option.or_none]
            exact ih hnodup.2 hc

theorem get_toValue (e : RegistryEntry) {c : Column} (hc : c ∈ columns) :
    e.toValue.get c.key = c.value e :=
  @get_filterMap Column columns Column.key (fun c => c.value e) nodup_keys c hc

theorem get_toValue_of_notMem (e : RegistryEntry) {key : String}
    (hkey : key ∉ columns.map Column.key) : e.toValue.get key = none := by
  apply Json.get_obj_of_notMem
  intro hmem
  obtain ⟨⟨_, v⟩, hentry, rfl⟩ := List.mem_map.mp hmem
  obtain ⟨c, hc, hsome⟩ := List.mem_filterMap.mp hentry
  obtain ⟨w, -, heq⟩ := Option.map_eq_some_iff.mp hsome
  exact hkey (List.mem_map.mpr ⟨c, hc, congrArg Prod.fst heq⟩)

theorem has_value (e : RegistryEntry) :
    ∀ c ∈ columns, ∀ v, c.value e = some v → c.type.has v = true := by
  have hi64 : ∀ key get v, (i64Column key get).value e = some v → FieldType.i64.has v = true := by
    intro key get v hv
    obtain ⟨n, -, rfl⟩ := Option.map_eq_some_iff.mp hv
    simp [FieldType.has]
  have hstr : ∀ key get v, (stringColumn key get).value e = some v →
      FieldType.string.has v = true := by
    intro key get v hv
    obtain ⟨s, -, rfl⟩ := Option.map_eq_some_iff.mp hv
    rfl
  have hbool : ∀ key get v, (boolColumn key get).value e = some v → FieldType.bool.has v = true := by
    intro key get v hv
    obtain ⟨b, -, rfl⟩ := Option.map_eq_some_iff.mp hv
    rfl
  simp only [columns, List.forall_mem_cons]
  exact ⟨hi64 _ _, hstr _ _, hstr _ _, hi64 _ _, hi64 _ _, hstr _ _, hstr _ _, hstr _ _, hstr _ _,
    hstr _ _, hstr _ _, hstr _ _, hstr _ _, hstr _ _, hstr _ _, hbool _ _, hstr _ _, hstr _ _,
    List.forall_mem_nil _⟩

theorem RegistryEntry.ext_value {e e' : RegistryEntry}
    (h : ∀ c ∈ columns, c.value e = c.value e') : e = e' := by
  have hi64 : ∀ {key get}, (i64Column key get).value e = (i64Column key get).value e' →
      get e = get e' := by
    intro key get heq
    refine @Option.map_injective _ _ (fun n : Int64 => Json.num n.toInt) ?_ _ _ heq
    intro m n hmn
    exact Int64.toInt_inj.mp (Json.num.inj hmn)
  have hstr : ∀ {key get}, (stringColumn key get).value e = (stringColumn key get).value e' →
      get e = get e' := by
    intro key get heq
    exact Option.map_injective (fun s t hst => Json.str.inj hst) heq
  have hbool : ∀ {key get}, (boolColumn key get).value e = (boolColumn key get).value e' →
      get e = get e' := by
    intro key get heq
    exact Option.map_injective (fun s t hst => Json.bool.inj hst) heq
  simp only [columns, List.forall_mem_cons] at h
  obtain ⟨h1, h2, h3, h4, h5, h6, h7, h8, h9, h10, h11, h12, h13, h14, h15, h16, h17, h18, -⟩ := h
  cases e
  cases e'
  rw [RegistryEntry.mk.injEq]
  exact ⟨hi64 h1, hstr h2, hstr h3, hi64 h4, hi64 h5, hstr h6, hstr h7, hstr h8, hstr h9, hstr h10,
    hstr h11, hstr h12, hstr h13, hstr h14, hstr h15, hbool h16, hstr h17, hstr h18⟩

/-- **The round trip.** -/
theorem fromValue_toValue (e : RegistryEntry) : fromValue e.toValue = some (e, []) := by
  have hsame : readFields e.toValue = e := by
    apply RegistryEntry.ext_value
    intro c hc
    rw [value_readFields _ c hc, get_toValue e hc]
    cases hv : c.value e with
    | none => rfl
    | some v => simp [Option.filter, has_value e c hc v hv]
  have hnone : degraded e.toValue = [] := by
    rw [degraded_eq, List.map_eq_nil_iff, List.filter_eq_nil_iff]
    intro c hc
    rw [Column.degrades, get_toValue e hc]
    cases hv : c.value e with
    | none => exact Bool.false_ne_true
    | some v =>
        have hhas := has_value e c hc v hv
        simp only [Option.any_some]
        split
        · exact Bool.false_ne_true
        · simp [hhas]
  calc fromValue e.toValue = some (readFields e.toValue, degraded e.toValue) := rfl
    _ = some (e, []) := by rw [hsame, hnone]

/-! ### Status updates -/

/-- The stored object is one that the record holds whole: it has the pid of the file, and every
other entry is under a key of the record and of its type. Status and stamp are replaced anyway. -/
def Faithful (pid : Int64) (j : Json) : Prop :=
  j.get "pid" = some (.num pid.toInt) ∧
    ∀ key v, key ≠ "status" → key ≠ "updatedAt" → j.get key = some v →
      ∃ c ∈ columns, c.key = key ∧ c.type.has v = true

/-- The write is to the row's own file, and differs from what is stored in the status and the stamp
only. -/
def Framed (serde : SerdeJson) (pid : Int64) (j : Json) (status : String) (nowMs : Int64)
    (write : Option (Int64 × Bytes)) : Prop :=
  ∃ bytes j', write = some (pid, bytes) ∧ serde.fromSlice bytes = some j' ∧
    j'.get "status" = some (.str status) ∧ j'.get "updatedAt" = some (.num nowMs.toInt) ∧
    ∀ key, key ≠ "status" → key ≠ "updatedAt" → j'.get key = j.get key

def ReadsBack (serde : SerdeJson) (pretty : Json → List Char) (e : RegistryEntry) : Prop :=
  serde.fromSlice (encodeUtf8 (pretty e.toValue)) = some e.toValue

def updated (j : Json) (status : String) (nowMs : Int64) : RegistryEntry :=
  { readFields j with status := some status, updatedAt := some nowMs }

theorem value_updated {j : Json} {status : String} {nowMs : Int64} {c : Column} (hc : c ∈ columns)
    (hstatus : c.key ≠ "status") (hupdated : c.key ≠ "updatedAt") :
    c.value (updated j status nowMs) = (j.get c.key).filter c.type.has := by
  rw [← value_readFields j c hc]
  revert hstatus hupdated
  revert c
  simp only [columns, List.forall_mem_cons]
  refine ⟨?_, ?_, ?_, ?_, ?_, ?_, ?_, ?_, ?_, ?_, ?_, ?_, ?_, ?_, ?_, ?_, ?_, ?_,
    List.forall_mem_nil _⟩
  all_goals intro hstatus hupdated
  all_goals first | rfl | exact absurd rfl hstatus | exact absurd rfl hupdated

section Frame

variable {serde : SerdeJson} {pretty : Json → List Char} {pid : Int64} {j : Json} {status : String}
  {nowMs : Int64}

theorem pidColumn_mem : i64Column "pid" (·.pid) ∈ columns := List.mem_cons_self

theorem statusColumn_mem : stringColumn "status" (·.status) ∈ columns :=
  List.mem_append_right (columns.take 5) List.mem_cons_self

theorem updatedColumn_mem : i64Column "updatedAt" (·.updatedAt) ∈ columns :=
  List.mem_append_right (columns.take 4) List.mem_cons_self

theorem faithful_of_kept (hpid : (updated j status nowMs).pid = some pid)
    (hkeep : ∀ key, key ≠ "status" → key ≠ "updatedAt" →
      (updated j status nowMs).toValue.get key = j.get key) : Faithful pid j := by
  constructor
  · have hget := get_toValue (updated j status nowMs) pidColumn_mem
    rw [← hkeep "pid" (by decide) (by decide)]
    refine hget.trans ?_
    change (updated j status nowMs).pid.map _ = _
    rw [hpid, Option.map_some]
  · intro key v hstatus hupdated hv
    rw [← hkeep key hstatus hupdated] at hv
    by_cases hkey : key ∈ columns.map Column.key
    · obtain ⟨c, hc, rfl⟩ := List.mem_map.mp hkey
      rw [get_toValue _ hc] at hv
      exact ⟨c, hc, rfl, has_value _ c hc v hv⟩
    · rw [get_toValue_of_notMem _ hkey] at hv
      cases hv

theorem kept_of_faithful (h : Faithful pid j) :
    ∀ key, key ≠ "status" → key ≠ "updatedAt" →
      (updated j status nowMs).toValue.get key = j.get key := by
  intro key hstatus hupdated
  by_cases hkey : key ∈ columns.map Column.key
  · obtain ⟨c, hc, rfl⟩ := List.mem_map.mp hkey
    rw [get_toValue _ hc, value_updated hc hstatus hupdated]
    cases hv : j.get c.key with
    | none => rfl
    | some v =>
        obtain ⟨c', hc', hsame, hhas⟩ := h.2 c.key v hstatus hupdated hv
        obtain rfl := List.inj_on_of_nodup_map nodup_keys hc' hc hsame
        simp [Option.filter, hhas]
  · rw [get_toValue_of_notMem _ hkey]
    cases hv : j.get key with
    | none => rfl
    | some v =>
        obtain ⟨c, hc, rfl, -⟩ := h.2 key v hstatus hupdated hv
        exact absurd (List.mem_map_of_mem hc) hkey

theorem pid_of_faithful (h : Faithful pid j) : (readFields j).pid = some pid := by
  have hvalue := value_readFields j _ pidColumn_mem
  change (readFields j).pid.map _ = (j.get "pid").filter _ at hvalue
  have hkeeps : (some (Json.num pid.toInt)).filter FieldType.i64.has = some (.num pid.toInt) := by
    simp [Option.filter, FieldType.has]
  rw [h.1] at hvalue
  obtain ⟨n, hn, hnum⟩ := Option.map_eq_some_iff.mp (hvalue.trans hkeeps)
  rw [hn, Int64.toInt_inj.mp (Json.num.inj hnum)]

/-- **The frame of an update**: the write keeps the rest of the row exactly if the record holds it
whole. -/
theorem framed_iff (hreads : ReadsBack serde pretty (updated j status nowMs)) {p : Int64}
    (hpid : (readFields j).pid = some p) :
    Framed serde pid j status nowMs
        (some (p, encodeUtf8 (pretty (updated j status nowMs).toValue))) ↔ Faithful pid j := by
  constructor
  · rintro ⟨bytes, j', hwrite, hread, -, -, hkeep⟩
    obtain ⟨rfl, rfl⟩ := Prod.mk.inj (Option.some.inj hwrite)
    obtain rfl := Option.some.inj (hreads.symm.trans hread)
    exact faithful_of_kept hpid hkeep
  · intro h
    obtain rfl := Option.some.inj (hpid.symm.trans (pid_of_faithful h))
    exact ⟨_, _, rfl, hreads, get_toValue _ statusColumn_mem, get_toValue _ updatedColumn_mem,
      kept_of_faithful h⟩

theorem setStatus_written {files : RowTexts} {expected : Option Int64}
    {entries : List (String × Json)} (hfile : (files pid).bind serde.fromSlice = some (.obj entries))
    (h : (setStatus serde pretty files pid expected status nowMs).1 = .written) :
    ∃ p, (readFields (.obj entries)).pid = some p ∧
      (setStatus serde pretty files pid expected status nowMs).2 =
        some (p, encodeUtf8 (pretty (updated (.obj entries) status nowMs).toValue)) := by
  have hentry : readEntry serde files pid = some (readFields (.obj entries)) := by
    rw [readEntry, parseFile, hfile]
    rfl
  have hrow : writeRow pretty (updated (.obj entries) status nowMs) =
      (readFields (.obj entries)).pid.map fun p =>
        (p, encodeUtf8 (pretty (updated (.obj entries) status nowMs).toValue)) := rfl
  have hset : setStatus serde pretty files pid expected status nowMs =
      match otherIncarnation (readFields (.obj entries)).startedAt expected with
      | some disk => (.rejected (some disk), none)
      | none =>
          match writeRow pretty (updated (.obj entries) status nowMs) with
          | some write => (.written, some write)
          | none => (.failed, none) := by
    rw [setStatus, hentry]
    rfl
  rw [hset, hrow] at h ⊢
  cases hother : otherIncarnation (readFields (.obj entries)).startedAt expected with
  | some disk =>
      rw [hother] at h
      cases h
  | none =>
      rw [hother] at h
      cases hpid : (readFields (.obj entries)).pid with
      | none =>
          rw [hpid] at h
          cases h
      | some p => exact ⟨p, rfl, rfl⟩

theorem setStatus_untouched {files : RowTexts} {expected : Option Int64}
    (h : (setStatus serde pretty files pid expected status nowMs).1 ≠ .written) :
    (setStatus serde pretty files pid expected status nowMs).2 = none := by
  revert h
  unfold setStatus
  split
  · exact fun _ => rfl
  · split
    · exact fun _ => rfl
    · split
      · exact fun h => absurd rfl h
      · exact fun _ => rfl

end Frame

def notedEntries : List (String × Json) :=
  [("pid", .num 7), ("status", .str "idle"), ("note", .str "x")]

def plainEntries : List (String × Json) := [("pid", .num 7), ("status", .str "idle")]

def rowSerde (entries : List (String × Json)) : SerdeJson :=
  .knowing [.obj entries, (updated (.obj entries) "busy" 5).toValue]

def rowFile (entries : List (String × Json)) : RowTexts :=
  fun pid => if pid = 7 then some (encodeUtf8 (Json.obj entries).compact) else none

theorem rowSerde_file (entries : List (String × Json)) :
    (rowFile entries 7).bind (rowSerde entries).fromSlice = some (.obj entries) := by
  simp [rowFile, rowSerde, SerdeJson.knowing]

theorem rowSerde_readsBack {entries : List (String × Json)}
    (hne : encodeUtf8 (Json.obj entries).compact ≠
      encodeUtf8 (updated (.obj entries) "busy" 5).toValue.compact) :
    ReadsBack (rowSerde entries) Json.compact (updated (.obj entries) "busy" 5) := by
  simp [ReadsBack, rowSerde, SerdeJson.knowing, hne]

end QuorumDispatch.Registry
