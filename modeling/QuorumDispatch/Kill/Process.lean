import Mathlib.Data.List.Infix
import Mathlib.Data.List.Nodup
import Mathlib.Logic.Relation
import QuorumDispatch.Lib.Text

/-!
Processes, as one reading of the process table has them, and what is decided by it: which
processes are above a session's and which are below, which command line is of a wrapper, and
whether a recorded pid is still of the process that wrote the record.
-/

namespace QuorumDispatch.Kill

open Lib

/-! ### Command lines -/

/-- `split_whitespace`. -/
def splitWhitespace (cs : List Char) : List (List Char) :=
  (cs.splitOnP isWhitespace).filter (· ≠ [])

/-- What is behind the last `/`. -/
def basename (cs : List Char) : List Char := (cs.splitOnP (· = '/')).getLastD []

def eqIgnoreAsciiCase (a b : String) : Bool := a.toList.map Char.toLower = b.toList.map Char.toLower

/-- What follows a `zmx`: a subcommand, flags and the name. -/
def parseSubcmdAndName (rest : List Char) : Option String :=
  match rest with
  | c :: rest =>
      if isWhitespace c then
        let rest := rest.dropWhile isWhitespace
        let sub := String.ofList (rest.takeWhile (!isWhitespace ·))
        let tail := rest.dropWhile (!isWhitespace ·)
        if sub = "run" ∨ sub = "r" ∨ sub = "attach" ∨ sub = "a" then
          ((splitWhitespace tail).find? fun tok => tok.head? ≠ some '-').map String.ofList
        else none
      else none
  | [] => none

def isWordChar (c : Char) : Bool := c.isAlphanum || c == '_'

def matchZmxWrapperFrom (before : Option Char) : List Char → Option String
  | [] => none
  | c :: cs =>
      if ['z', 'm', 'x'] <+: c :: cs ∧ !before.any isWordChar then
        (parseSubcmdAndName (cs.drop 2)).or (matchZmxWrapperFrom (some c) cs)
      else matchZmxWrapperFrom (some c) cs

/-- The name in a `zmx run` or `zmx attach` command line. -/
def matchZmxWrapperName (cmd : String) : Option String := matchZmxWrapperFrom none cmd.toList

def cmdlineIsSessionProgram (cmdline sessionBin : String) : Bool :=
  let binBase := basename sessionBin.toList
  (splitWhitespace cmdline.toList).any fun tok =>
    let tokBase := basename tok
    !sessionBin.isEmpty && tok == sessionBin.toList ||
      (!binBase.isEmpty && tokBase == binBase ||
        decide ("claude".toList <:+: tokBase) && !tokBase.contains '.')

/-! ### Recorded pids -/

def startTimeSlackMs : Int64 := 120000

def startedOurs (procStartMs rowStartedAtMs : Option Int64) : Bool :=
  match procStartMs, rowStartedAtMs with
  | some p, some r => p ≤ r + startTimeSlackMs
  | _, _ => false

def cmdlineOurs (cmdline : Option String) (sessionBin : String) : Bool :=
  cmdline.any fun cmd => cmdlineIsSessionProgram cmd sessionBin

def pidIsForeign (alive : Bool) (cmdline : Option String) (sessionBin : String)
    (procStartMs rowStartedAtMs : Option Int64) : Bool :=
  alive && !startedOurs procStartMs rowStartedAtMs &&
    cmdline.any fun cmd => !cmdlineIsSessionProgram cmd sessionBin

def sweepRootAllowed (cmdline : Option String) (sessionBin : String)
    (procStartMs rowStartedAtMs : Option Int64) : Bool :=
  match procStartMs, rowStartedAtMs with
  | some p, some r =>
      if r + startTimeSlackMs < p then false
      else cmdlineOurs cmdline sessionBin || startedOurs (some p) (some r)
  | p, r => cmdlineOurs cmdline sessionBin || startedOurs p r

def wrapperKillAllowed (cmdline : Option String) (zmxName : String) : Bool :=
  (cmdline.bind matchZmxWrapperName).any fun n => eqIgnoreAsciiCase n zmxName

inductive PidProvenance where
  | registry
  | paneDerived
deriving DecidableEq, Repr

inductive SessionBranch where
  | liveRegistry
  | coldJsonl
  | zmxOnly
  | tombstoned
deriving DecidableEq, Repr

def SessionBranch.provenance : SessionBranch → PidProvenance
  | liveRegistry | tombstoned => .registry
  | coldJsonl | zmxOnly => .paneDerived

/-! ### The process table -/

structure ProcRow where
  ppid : Int32
  cmd : String
deriving DecidableEq, Repr

/-- The rows of one `ps`, by pid. -/
structure ProcTable where
  rows : List (Int32 × ProcRow)
  unique : (rows.map Prod.fst).Nodup

namespace ProcTable

def get (t : ProcTable) (pid : Int32) : Option ProcRow :=
  (t.rows.find? (·.1 = pid)).map Prod.snd

def parent? (node : ProcRow) (cur : Int32) : Option Int32 :=
  if node.ppid ≤ 1 ∨ node.ppid = cur then none else some node.ppid

def ancestorChainFrom (t : ProcTable) : Nat → Int32 → List Int32
  | 0, _ => []
  | n + 1, cur =>
      match (t.get cur).bind (parent? · cur) with
      | some ppid => cur :: t.ancestorChainFrom n ppid
      | none => [cur]

def ancestorChain (t : ProcTable) (pid : Int32) : List Int32 :=
  if pid ≤ 0 then [] else t.ancestorChainFrom 10 pid

structure ZmxWrapper where
  wrapperPid : Int32
  zmxName : String
deriving DecidableEq, Repr

def findZmxWrapperFrom (t : ProcTable) (pid : Int32) : Nat → Int32 → Option ZmxWrapper
  | 0, _ => none
  | n + 1, cur =>
      match t.get cur with
      | none => none
      | some node =>
          match matchZmxWrapperName node.cmd, decide (cur ≠ pid) with
          | some name, true => some { wrapperPid := cur, zmxName := name }
          | _, _ =>
              match parent? node cur with
              | some ppid => t.findZmxWrapperFrom pid n ppid
              | none => none

def findZmxWrapperForPid (t : ProcTable) (pid : Int32) : Option ZmxWrapper :=
  if pid ≤ 0 then none else t.findZmxWrapperFrom pid 6 pid

/-- The wrapper is above the process, and its command line has the name. -/
structure Wraps (t : ProcTable) (pid : Int32) (w : ZmxWrapper) : Prop where
  above : w.wrapperPid ∈ t.ancestorChain pid
  proper : w.wrapperPid ≠ pid
  named : ∃ node, t.get w.wrapperPid = some node ∧ matchZmxWrapperName node.cmd = some w.zmxName

/-! ### Descendants -/

def Child (t : ProcTable) (c p : Int32) : Prop :=
  ∃ row, (c, row) ∈ t.rows ∧ 0 < c ∧ 0 < row.ppid ∧ row.ppid ≠ c ∧ row.ppid = p

def children (t : ProcTable) (p : Int32) : List Int32 :=
  t.rows.filterMap fun (c, row) =>
    if 0 < c ∧ 0 < row.ppid ∧ row.ppid ≠ c ∧ row.ppid = p then some c else none

structure Search where
  seen : List Int32
  ordered : List (Nat × Int32) := []
  next : List Int32 := []

def Search.visit (depth : Nat) (s : Search) (c : Int32) : Search :=
  if c ∈ s.seen then s
  else { seen := c :: s.seen, ordered := s.ordered ++ [(depth, c)], next := s.next ++ [c] }

def Search.level (t : ProcTable) (depth : Nat) (s : Search) : Search :=
  (s.next.flatMap t.children).foldl (Search.visit depth) { s with next := [] }

def Search.run (t : ProcTable) : Nat → Nat → Search → Search
  | 0, _, s => s
  | n + 1, depth, s =>
      if s.next = [] then s else Search.run t n (depth + 1) (s.level t (depth + 1))

def sweepOrder (a b : Nat × Int32) : Bool := b.1 < a.1 || a.1 == b.1 && decide (a.2 ≤ b.2)

def descendantKillList (root selfPid : Int32) (t : ProcTable) : List Int32 :=
  if root ≤ 0 then []
  else
    let s := Search.run t 32 0 { seen := [root], next := [root] }
    if root = selfPid ∨ s.ordered.any (·.2 = selfPid) then []
    else (s.ordered.mergeSort sweepOrder).map Prod.snd

variable {t : ProcTable} {pid root : Int32}

theorem mem_ancestorChainFrom {n : Nat} {cur : Int32} : cur ∈ t.ancestorChainFrom (n + 1) cur := by
  rw [ancestorChainFrom]
  split <;> simp

theorem findZmxWrapperFrom_above {n m : Nat} {cur : Int32} {w : ZmxWrapper} (hnm : n ≤ m)
    (h : t.findZmxWrapperFrom pid n cur = some w) :
    w.wrapperPid ∈ t.ancestorChainFrom m cur ∧ w.wrapperPid ≠ pid ∧
      ∃ node, t.get w.wrapperPid = some node ∧ matchZmxWrapperName node.cmd = some w.zmxName := by
  induction n generalizing m cur with
  | zero => cases h
  | succ n ih =>
      obtain ⟨m, rfl⟩ : ∃ k, m = k + 1 := ⟨m - 1, by omega⟩
      rw [findZmxWrapperFrom] at h
      split at h
      next => cases h
      next node hnode =>
        split at h
        next name hname hcur =>
          cases h
          exact ⟨mem_ancestorChainFrom, of_decide_eq_true hcur, node, hnode, hname⟩
        next =>
          split at h
          next ppid hparent =>
            obtain ⟨habove, hproper, hnamed⟩ := ih (Nat.le_of_succ_le_succ hnm) h
            refine ⟨?_, hproper, hnamed⟩
            rw [ancestorChainFrom, hnode, Option.bind_some, hparent]
            exact List.mem_cons_of_mem cur habove
          next => cases h

theorem wraps_of_find {w : ZmxWrapper} (h : t.findZmxWrapperForPid pid = some w) : t.Wraps pid w := by
  rw [findZmxWrapperForPid] at h
  split at h
  next => cases h
  next hpos =>
    obtain ⟨habove, hproper, hnamed⟩ := findZmxWrapperFrom_above (show 6 ≤ 10 by decide) h
    exact ⟨by rwa [ancestorChain, if_neg hpos], hproper, hnamed⟩

theorem child_of_mem_children {c p : Int32} (h : c ∈ t.children p) : t.Child c p := by
  obtain ⟨⟨c', row⟩, hmem, hif⟩ := List.mem_filterMap.mp h
  simp only [Option.ite_none_right_eq_some, Option.some.injEq] at hif
  obtain ⟨⟨hpos, hppos, hne, heq⟩, rfl⟩ := hif
  exact ⟨row, hmem, hpos, hppos, hne, heq⟩

/-- A search below the root: it comes to every process once, and to the root never again. -/
structure Search.Below (t : ProcTable) (root : Int32) (s : Search) : Prop where
  start : root ∈ s.seen
  seen : ∀ c ∈ s.ordered.map Prod.snd, c ∈ s.seen
  nodup : (s.ordered.map Prod.snd).Nodup
  proper : ∀ c ∈ s.ordered.map Prod.snd, c ≠ root ∧ Relation.TransGen t.Child c root
  next : ∀ c ∈ s.next, Relation.ReflTransGen t.Child c root

theorem Search.Below.visit {s : Search} (h : s.Below t root) (depth : Nat) {c p : Int32}
    (hchild : t.Child c p) (hp : Relation.ReflTransGen t.Child p root) :
    (s.visit depth c).Below t root := by
  unfold Search.visit
  split
  · exact h
  next hnew =>
    have hbelow : Relation.TransGen t.Child c root := .head' hchild hp
    refine ⟨List.mem_cons_of_mem c h.start, ?_, ?_, ?_, ?_⟩
    · intro d hd
      rw [List.map_append, List.mem_append] at hd
      rcases hd with hd | hd
      · exact List.mem_cons_of_mem c (h.seen d hd)
      · rw [List.mem_singleton.mp hd]
        exact List.mem_cons_self
    · rw [List.map_append, List.nodup_append]
      refine ⟨h.nodup, List.nodup_singleton c, ?_⟩
      rintro d hd e he rfl
      have hdc : d = c := List.mem_singleton.mp he
      exact hnew (hdc ▸ h.seen d hd)
    · intro d hd
      rw [List.map_append, List.mem_append] at hd
      rcases hd with hd | hd
      · exact h.proper d hd
      · have hdc : d = c := List.mem_singleton.mp hd
        subst hdc
        exact ⟨fun heq => hnew (heq ▸ h.start), hbelow⟩
    · intro d hd
      rcases List.mem_append.mp hd with hd | hd
      · exact h.next d hd
      · rw [List.mem_singleton.mp hd]
        exact hbelow.to_reflTransGen

theorem Search.Below.level {s : Search} (h : s.Below t root) (depth : Nat) :
    (s.level t depth).Below t root := by
  have hfold : ∀ (cs : List Int32) (s' : Search), s'.Below t root →
      (∀ c ∈ cs, ∃ p, t.Child c p ∧ Relation.ReflTransGen t.Child p root) →
      (cs.foldl (Search.visit depth) s').Below t root := by
    intro cs
    induction cs with
    | nil => exact fun s' hs' _ => hs'
    | cons c cs ih =>
        intro s' hs' hcs
        obtain ⟨p, hchild, hp⟩ := hcs c List.mem_cons_self
        exact ih _ (hs'.visit depth hchild hp) fun d hd => hcs d (List.mem_cons_of_mem c hd)
  refine hfold _ _ ⟨h.start, h.seen, h.nodup, h.proper, fun _ hc => by cases hc⟩ ?_
  intro c hc
  obtain ⟨p, hp, hchild⟩ := List.mem_flatMap.mp hc
  exact ⟨p, child_of_mem_children hchild, h.next p hp⟩

theorem Search.Below.run {s : Search} (h : s.Below t root) (n depth : Nat) :
    (Search.run t n depth s).Below t root := by
  induction n generalizing s depth with
  | zero => exact h
  | succ n ih =>
      rw [Search.run]
      split
      · exact h
      · exact ih (h.level (depth + 1)) (depth + 1)

theorem descendantKillList_spec (root selfPid : Int32) (t : ProcTable) :
    (descendantKillList root selfPid t).Nodup ∧
      ∀ c ∈ descendantKillList root selfPid t, c ≠ root ∧ Relation.TransGen t.Child c root := by
  unfold descendantKillList
  split
  · exact ⟨List.nodup_nil, fun _ h => by cases h⟩
  · have hstart : ({ seen := [root], next := [root] } : Search).Below t root := by
      refine ⟨List.mem_cons_self, fun _ h => absurd h List.not_mem_nil, List.nodup_nil,
        fun _ h => absurd h List.not_mem_nil, ?_⟩
      intro c hc
      rw [List.mem_singleton.mp hc]
    have hbelow := hstart.run 32 0
    dsimp only
    split
    · exact ⟨List.nodup_nil, fun _ h => by cases h⟩
    · have hperm := (List.mergeSort_perm (Search.run t 32 0 { seen := [root], next := [root] }).ordered
        sweepOrder).map Prod.snd
      exact ⟨hperm.nodup_iff.mpr hbelow.nodup, fun c hc => hbelow.proper c (hperm.mem_iff.mp hc)⟩

end ProcTable

end QuorumDispatch.Kill
