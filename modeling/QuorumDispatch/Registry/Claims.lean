import Mathlib.Logic.Function.Basic
import QuorumDispatch.Lib.Partial
import QuorumDispatch.Lib.Text

/-!
Claims on session names. A claim is a file, created exclusively, with the process that
holds it as its payload. A claim that is found is read; if its holder is dead, or its pid
is another process's by now, the file is removed and created once more.

The steps of any number of calls interleave, with processes that start and die.
-/

namespace QuorumDispatch.Registry

open Lib

/-! ### File names -/

def toAsciiLowercase (b : UInt8) : UInt8 := if 65 ≤ b ∧ b ≤ 90 then b + 32 else b

def hexDigit (n : UInt8) : UInt8 := if n < 10 then 48 + n else 55 + n

/-- Bytes that stand for themselves in the name of a claim file. -/
def passesThrough (b : UInt8) : Bool :=
  (65 ≤ b && b ≤ 90) || (97 ≤ b && b ≤ 122) || (48 ≤ b && b ≤ 57) || b == 46 || b == 95 || b == 45

def encodeByte (b : UInt8) : Bytes :=
  if passesThrough b then [toAsciiLowercase b] else [37, hexDigit (b / 16), hexDigit (b % 16)]

/-- `None` for the empty name. -/
def encodeClaimName (name : Bytes) : Option Bytes :=
  if name = [] then none else some (name.flatMap encodeByte)

theorem encodeByte_toAsciiLowercase (b : UInt8) : encodeByte (toAsciiLowercase b) = encodeByte b := by
  have h : ∀ n : Fin 256, encodeByte (toAsciiLowercase (.ofNat n)) = encodeByte (.ofNat n) := by
    decide +kernel
  simpa using h ⟨b.toNat, b.toNat_lt⟩

theorem encodeClaimName_congr {name name' : Bytes}
    (h : name.map toAsciiLowercase = name'.map toAsciiLowercase) :
    encodeClaimName name = encodeClaimName name' := by
  have hfold : ∀ name : Bytes,
      name.flatMap encodeByte = (name.map toAsciiLowercase).flatMap encodeByte := by
    intro name
    simp [List.flatMap_map, encodeByte_toAsciiLowercase]
  have hnil : name = [] ↔ name' = [] := by
    rw [← List.map_eq_nil_iff (f := toAsciiLowercase), h, List.map_eq_nil_iff]
  unfold encodeClaimName
  rw [hfold name, hfold name', h]
  simp only [hnil]

/-! ### Payloads -/

/-- A process: pids are used again, and start times tell the processes apart. -/
structure Proc where
  pid : Nat
  start : Int
deriving DecidableEq, Repr

/-- What is read off a payload. `start` is absent if the claimant could not find it, and an
absent `incarnation` reads as 0. -/
structure Payload where
  pid : Nat
  start : Option Int
  incarnation : Nat
deriving DecidableEq, Repr

def startTimeSlackMs : Int := 120000

def claimIsStale (existing : Option Payload) (isAlive : Nat → Bool) (procStart : Nat → Option Int) :
    Bool :=
  match existing with
  | none => false
  | some payload =>
      if !isAlive payload.pid then true
      else match payload.start with
        | some claimedStart =>
            (procStart payload.pid).any fun cur => claimedStart + startTimeSlackMs < cur
        | none => false

def Payload.Names (payload : Payload) (p : Proc) : Prop :=
  payload.pid = p.pid ∧ ∀ start ∈ payload.start, start = p.start

/-! ### Calls -/

/-- A call of `claim_name` or, if stamped, of `claim_name_with_incarnation`. `probed` says
that the claimant found its own start time. -/
structure Call where
  proc : Proc
  name : Bytes
  stamped : Bool
  probed : Bool
deriving DecidableEq, Repr

def Call.path (c : Call) : Option Bytes := encodeClaimName c.name

def Call.claimPayload (c : Call) (incarnation : Nat) : Payload :=
  { pid := c.proc.pid, start := if c.probed then some c.proc.start else none, incarnation }

/-- What a call does next, or its result. Files are numbered in the order of their
creation; `removing` and what leads to it remember the file whose payload was read. -/
inductive Phase where
  | creating
  | stamping (file : Nat)
  | writing (file incarnation : Nat)
  | reading
  | judging (existing : Option (Nat × Payload))
  | bumping (existing : Nat)
  | removing (existing incarnation : Nat)
  | retrying (incarnation : Nat)
  | refused
  | holding (file : Nat)
  | released
deriving DecidableEq, Repr

def Phase.owned : Phase → Option Nat
  | .stamping file | .writing file _ | .holding file => some file
  | _ => none

def Phase.condemned : Phase → Option Nat
  | .bumping file | .removing file _ => some file
  | _ => none

/-- The claims directory and the processes. `past` are all processes that there were;
`creators` has the call that created each file. -/
structure Claims where
  past : List Proc := []
  alive : List Proc := []
  calls : List Call := []
  phase : Nat → Phase := fun _ => .creating
  creators : List Nat := []
  payload : Nat → Option Payload := fun _ => none
  dir : Option Bytes → Option Nat := fun _ => none

namespace Claims

def isAlive (s : Claims) (pid : Nat) : Bool := s.alive.any fun p => p.pid == pid

def procStart (s : Claims) (answers : Bool) (pid : Nat) : Option Int :=
  if answers then (s.alive.find? fun p => p.pid == pid).map Proc.start else none

def setPhase (s : Claims) (k : Nat) (phase : Phase) : Claims :=
  { s with phase := Function.update s.phase k phase }

def create (s : Claims) (k : Nat) (path : Option Bytes) : Claims :=
  { s with
    creators := s.creators ++ [k]
    dir := Function.update s.dir path (some s.creators.length) }

def write (s : Claims) (file : Nat) (payload : Payload) : Claims :=
  { s with payload := Function.update s.payload file (some payload) }

def remove (s : Claims) (path : Option Bytes) : Claims :=
  { s with dir := Function.update s.dir path none }

/-- `read_best_effort`, as the payload parses. -/
def read (s : Claims) (path : Option Bytes) : Option (Nat × Payload) := do
  let file ← s.dir path
  let payload ← s.payload file
  some (file, payload)

def nextClaimIncarnation (s : Claims) (path : Option Bytes) : Nat :=
  ((s.read path).map fun existing => existing.2.incarnation).getD 0 + 1

def advance? (s : Claims) (k : Nat) (c : Call) (answers : Bool) : Option Claims :=
  match s.phase k with
  | .creating =>
      match s.dir c.path with
      | none => some ((s.create k c.path).setPhase k
          (if c.stamped then .stamping s.creators.length else .writing s.creators.length 0))
      | some _ => some (s.setPhase k .reading)
  | .stamping file => some (s.setPhase k (.writing file (max (s.nextClaimIncarnation c.path) 1)))
  | .writing file incarnation =>
      some ((s.write file (c.claimPayload incarnation)).setPhase k (.holding file))
  | .reading => some (s.setPhase k (.judging (s.read c.path)))
  | .judging existing =>
      if claimIsStale (existing.map Prod.snd) s.isAlive (s.procStart answers) then
        match existing with
        | some (file, _) =>
            some (s.setPhase k (if c.stamped then .bumping file else .removing file 0))
        | none => none
      else some (s.setPhase k .refused)
  | .bumping existing => some (s.setPhase k (.removing existing (s.nextClaimIncarnation c.path)))
  | .removing _ incarnation => some ((s.remove c.path).setPhase k (.retrying incarnation))
  | .retrying incarnation =>
      match s.dir c.path with
      | none => some ((s.create k c.path).setPhase k (.writing s.creators.length incarnation))
      | some _ => some (s.setPhase k .refused)
  | .refused | .holding _ | .released => none

inductive Step where
  | spawn (p : Proc)
  | die (p : Proc)
  | call (c : Call)
  | advance (k : Nat) (answers : Bool)
  | release (k : Nat)
deriving DecidableEq, Repr

def step? (s : Claims) : Step → Option Claims
  | .spawn p => do
      guard (p ∉ s.past ∧ s.isAlive p.pid = false)
      some { s with past := p :: s.past, alive := p :: s.alive }
  | .die p => some { s with alive := s.alive.filter (· ≠ p) }
  | .call c => do
      guard (c.proc ∈ s.alive ∧ c.name ≠ [])
      some ({ s with calls := s.calls ++ [c] }.setPhase s.calls.length .creating)
  | .advance k answers => do
      let c ← s.calls[k]?
      guard (c.proc ∈ s.alive)
      s.advance? k c answers
  | .release k => do
      let c ← s.calls[k]?
      guard (c.proc ∈ s.alive)
      match s.phase k with
      | .holding _ => some ((s.remove c.path).setPhase k .released)
      | _ => none

def run? (s : Claims) (steps : List Step) : Option Claims := steps.foldlM step? s

/-! ### Exclusion -/

/-- A reaper finds the file that it has read at the path, or none. -/
def reapsRead (s : Claims) : Step → Bool
  | .advance k _ =>
      match s.phase k, s.calls[k]? with
      | .removing existing _, some c => s.dir c.path = none ∨ s.dir c.path = some existing
      | _, _ => true
  | _ => true

def callOf (s : Claims) (file : Nat) : Option Call := s.creators[file]?.bind fun k => s.calls[k]?

/-- Processes have their own pids; a payload names the creator of its file; a condemned
file has a dead creator; and the file that a live process created and has not released is
the one at the path. -/
structure Ok (s : Claims) : Prop where
  distinct : ∀ p ∈ s.alive, ∀ q ∈ s.alive, p.pid = q.pid → p = q
  past : ∀ p ∈ s.alive, p ∈ s.past
  callers : ∀ c ∈ s.calls, c.proc ∈ s.past
  payload : ∀ file payload, s.payload file = some payload →
    ∃ c, s.callOf file = some c ∧ payload.Names c.proc
  judging : ∀ k file payload, s.phase k = .judging (some (file, payload)) →
    ∃ c, s.callOf file = some c ∧ payload.Names c.proc
  condemned : ∀ k file, (s.phase k).condemned = some file →
    ∃ c, s.callOf file = some c ∧ c.proc ∉ s.alive
  owns : ∀ k c file, s.calls[k]? = some c → c.proc ∈ s.alive → (s.phase k).owned = some file →
    s.creators[file]? = some k ∧ s.dir c.path = some file

variable {s s' : Claims}

theorem mem_past_of_callOf (h : s.Ok) {file : Nat} {c : Call} (hc : s.callOf file = some c) :
    c.proc ∈ s.past := by
  obtain ⟨k, -, hk⟩ := Option.bind_eq_some_iff.mp hc
  exact h.callers c (List.mem_of_getElem? hk)

theorem claimIsStale_alive (h : s.Ok) {p : Proc} (hp : p ∈ s.alive) {payload : Payload}
    (hnames : payload.Names p) (answers : Bool) :
    claimIsStale (some payload) s.isAlive (s.procStart answers) = false := by
  have halive : s.isAlive payload.pid = true := by
    rw [hnames.1]
    exact List.any_eq_true.mpr ⟨p, hp, by simp⟩
  have hcur : ∀ cur ∈ s.procStart answers payload.pid, cur = p.start := by
    intro cur hcur
    unfold procStart at hcur
    split_ifs at hcur
    · obtain ⟨q, hq, rfl⟩ := Option.map_eq_some_iff.mp hcur
      have hpid : q.pid = payload.pid := by simpa using List.find?_some hq
      rw [h.distinct q (List.mem_of_find?_eq_some hq) p hp (hpid.trans hnames.1)]
    · cases hcur
  unfold claimIsStale
  dsimp only
  rw [halive]
  cases hstart : payload.start with
  | none => rfl
  | some claimed =>
      dsimp only
      cases hprobe : s.procStart answers payload.pid with
      | none => rfl
      | some cur =>
          rw [hnames.2 claimed hstart, hcur cur hprobe]
          refine decide_eq_false ?_
          rw [startTimeSlackMs]
          omega

/-! ### What the steps are made of -/

theorem setPhase_phase (s : Claims) (k : Nat) (phase : Phase) (j : Nat) :
    (s.setPhase k phase).phase j = if j = k then phase else s.phase j :=
  Function.update_apply ..

theorem Ok.setPhase (h : s.Ok) {k : Nat} {phase : Phase}
    (hjudging : ∀ file payload, phase = .judging (some (file, payload)) →
      ∃ c, s.callOf file = some c ∧ payload.Names c.proc)
    (hcondemned : ∀ file, phase.condemned = some file →
      ∃ c, s.callOf file = some c ∧ c.proc ∉ s.alive)
    (howns : ∀ c file, s.calls[k]? = some c → c.proc ∈ s.alive → phase.owned = some file →
      s.creators[file]? = some k ∧ s.dir c.path = some file) : (s.setPhase k phase).Ok where
  distinct := h.distinct
  past := h.past
  callers := h.callers
  payload := h.payload
  judging j file payload hj := by
    rw [setPhase_phase] at hj
    split_ifs at hj
    · exact hjudging file payload hj
    · exact h.judging j file payload hj
  condemned j file hj := by
    rw [setPhase_phase] at hj
    split_ifs at hj
    · exact hcondemned file hj
    · exact h.condemned j file hj
  owns j c file hc halive hj := by
    rw [setPhase_phase] at hj
    split_ifs at hj with hjk
    · subst hjk
      exact howns c file hc halive hj
    · exact h.owns j c file hc halive hj

theorem Ok.setPhase_blank (h : s.Ok) (k : Nat) {phase : Phase}
    (hphase : phase = .creating ∨ phase = .reading ∨ phase = .judging none ∨ phase = .refused ∨
      phase = .released ∨ ∃ incarnation, phase = .retrying incarnation) :
    (s.setPhase k phase).Ok := by
  refine h.setPhase ?_ ?_ ?_
  all_goals obtain rfl | rfl | rfl | rfl | rfl | ⟨_, rfl⟩ := hphase <;> simp [Phase.condemned, Phase.owned]

theorem Ok.create (h : s.Ok) {k : Nat} {c : Call} (hnone : s.dir c.path = none) :
    (s.create k c.path).Ok := by
  have hcall : ∀ {file c'}, s.callOf file = some c' → (s.create k c.path).callOf file = some c' := by
    intro file c' hc'
    obtain ⟨j, hj, hc'⟩ := Option.bind_eq_some_iff.mp hc'
    refine Option.bind_eq_some_iff.mpr ⟨j, ?_, hc'⟩
    exact getElem?_append_of_eq_some hj _
  refine ⟨h.distinct, h.past, h.callers, ?_, ?_, ?_, ?_⟩
  · intro file payload hpayload
    obtain ⟨c', hc', hnames⟩ := h.payload file payload hpayload
    exact ⟨c', hcall hc', hnames⟩
  · intro j file payload hj
    obtain ⟨c', hc', hnames⟩ := h.judging j file payload hj
    exact ⟨c', hcall hc', hnames⟩
  · intro j file hj
    obtain ⟨c', hc', hdead⟩ := h.condemned j file hj
    exact ⟨c', hcall hc', hdead⟩
  · intro j c' file hc' halive hj
    obtain ⟨hcreator, hdir⟩ := h.owns j c' file hc' halive hj
    have hlt : file < s.creators.length := (List.getElem?_eq_some_iff.mp hcreator).1
    have hpath : c'.path ≠ c.path := by
      intro hpath
      rw [hpath, hnone] at hdir
      cases hdir
    refine ⟨(List.getElem?_append_left hlt).trans hcreator, ?_⟩
    exact (Function.update_of_ne hpath _ _).trans hdir

theorem Ok.write (h : s.Ok) {k : Nat} {c : Call} (hc : s.calls[k]? = some c) {file : Nat}
    (hfile : s.creators[file]? = some k) {payload : Payload} (hnames : payload.Names c.proc) :
    (s.write file payload).Ok := by
  refine ⟨h.distinct, h.past, h.callers, ?_, h.judging, h.condemned, h.owns⟩
  intro file' payload' hpayload
  by_cases hfile' : file' = file
  · subst hfile'
    obtain rfl : payload = payload' := by simpa [Claims.write] using hpayload
    exact ⟨c, Option.bind_eq_some_iff.mpr ⟨k, hfile, hc⟩, hnames⟩
  · exact h.payload file' payload' (by simpa [Claims.write, hfile'] using hpayload)

theorem Ok.remove (h : s.Ok) {path : Option Bytes}
    (hfree : ∀ k c file, s.calls[k]? = some c → c.proc ∈ s.alive → (s.phase k).owned = some file →
      c.path ≠ path) : (s.remove path).Ok := by
  refine ⟨h.distinct, h.past, h.callers, h.payload, h.judging, h.condemned, ?_⟩
  intro k c file hc halive hk
  obtain ⟨hcreator, hdir⟩ := h.owns k c file hc halive hk
  refine ⟨hcreator, ?_⟩
  exact (Function.update_of_ne (hfree k c file hc halive hk) _ _).trans hdir

/-! ### Steps -/

theorem Ok.spawn (h : s.Ok) {p : Proc} (hnew : p ∉ s.past) (hpid : s.isAlive p.pid = false) :
    ({ s with past := p :: s.past, alive := p :: s.alive } : Claims).Ok := by
  have hpid' : ∀ q ∈ s.alive, q.pid ≠ p.pid := by
    intro q hq
    simpa using List.any_eq_false.mp hpid q hq
  have hold : ∀ {q}, q ∈ s.past → q ∈ p :: s.alive → q ∈ s.alive := by
    intro q hq hmem
    obtain rfl | hmem := List.mem_cons.mp hmem
    · exact absurd hq hnew
    · exact hmem
  refine ⟨?_, ?_, fun c hc => List.mem_cons_of_mem _ (h.callers c hc), h.payload, h.judging, ?_, ?_⟩
  · intro q hq r hr hqr
    obtain hqp | hq := List.mem_cons.mp hq <;> obtain hrp | hr := List.mem_cons.mp hr
    · exact hqp.trans hrp.symm
    · exact absurd (hqp ▸ hqr).symm (hpid' r hr)
    · exact absurd (hrp ▸ hqr) (hpid' q hq)
    · exact h.distinct q hq r hr hqr
  · intro q hq
    obtain rfl | hq := List.mem_cons.mp hq
    · exact List.mem_cons_self
    · exact List.mem_cons_of_mem _ (h.past q hq)
  · intro k file hk
    obtain ⟨c, hc, hdead⟩ := h.condemned k file hk
    exact ⟨c, hc, fun halive => hdead (hold (mem_past_of_callOf h hc) halive)⟩
  · intro k c file hc halive hk
    exact h.owns k c file hc (hold (h.callers c (List.mem_of_getElem? hc)) halive) hk

theorem Ok.die (h : s.Ok) (p : Proc) : ({ s with alive := s.alive.filter (· ≠ p) } : Claims).Ok := by
  have hold : ∀ {q}, q ∈ s.alive.filter (· ≠ p) → q ∈ s.alive := List.mem_of_mem_filter
  refine ⟨fun q hq r hr => h.distinct q (hold hq) r (hold hr), fun q hq => h.past q (hold hq),
    h.callers, h.payload, h.judging, ?_, fun k c file hc halive => h.owns k c file hc (hold halive)⟩
  intro k file hk
  obtain ⟨c, hc, hdead⟩ := h.condemned k file hk
  exact ⟨c, hc, fun halive => hdead (hold halive)⟩

theorem Ok.call (h : s.Ok) {c : Call} (hc : c.proc ∈ s.alive) :
    ({ s with calls := s.calls ++ [c] }.setPhase s.calls.length .creating).Ok := by
  have hcall : ∀ {file c'}, s.callOf file = some c' →
      callOf ({ s with calls := s.calls ++ [c] }.setPhase s.calls.length .creating) file = some c' := by
    intro file c' hc'
    obtain ⟨j, hj, hc'⟩ := Option.bind_eq_some_iff.mp hc'
    refine Option.bind_eq_some_iff.mpr ⟨j, hj, ?_⟩
    exact getElem?_append_of_eq_some hc' _
  refine ⟨h.distinct, h.past, ?_, ?_, ?_, ?_, ?_⟩
  · intro c' hc'
    obtain hc' | hc' := List.mem_append.mp hc'
    · exact h.callers c' hc'
    · rw [List.mem_singleton.mp hc']
      exact h.past c.proc hc
  · intro file payload hpayload
    obtain ⟨c', hc', hnames⟩ := h.payload file payload hpayload
    exact ⟨c', hcall hc', hnames⟩
  · intro j file payload hj
    rw [setPhase_phase] at hj
    split_ifs at hj
    obtain ⟨c', hc', hnames⟩ := h.judging j file payload hj
    exact ⟨c', hcall hc', hnames⟩
  · intro j file hj
    rw [setPhase_phase] at hj
    split_ifs at hj
    · cases hj
    · obtain ⟨c', hc', hdead⟩ := h.condemned j file hj
      exact ⟨c', hcall hc', hdead⟩
  · intro j c' file hc' halive hj
    rw [setPhase_phase] at hj
    split_ifs at hj with hjk
    · cases hj
    · exact h.owns j c' file (getElem?_of_snoc hc' hjk) halive hj

theorem Ok.created (h : s.Ok) {k : Nat} {c : Call} (hc : s.calls[k]? = some c)
    (hnone : s.dir c.path = none) {phase : Phase} (howned : phase.owned = some s.creators.length)
    (hcondemned : phase.condemned = none) (hjudging : ∀ existing, phase ≠ .judging existing) :
    ((s.create k c.path).setPhase k phase).Ok := by
  refine (h.create hnone).setPhase ?_ ?_ ?_
  · intro file payload hphase
    exact absurd hphase (hjudging _)
  · intro file hfile
    rw [hcondemned] at hfile
    cases hfile
  · intro c' file hc' _ hfile
    cases hc.symm.trans hc'
    cases howned.symm.trans hfile
    exact ⟨List.getElem?_concat_length, Function.update_self ..⟩

theorem Ok.advance? (h : s.Ok) {k : Nat} {c : Call} (hc : s.calls[k]? = some c)
    (halive : c.proc ∈ s.alive) {answers : Bool} (hreap : s.reapsRead (.advance k answers) = true)
    (hstep : s.advance? k c answers = some s') : s'.Ok := by
  unfold Claims.advance? at hstep
  split at hstep
  case h_1 hphase =>
    split at hstep
    next hnone =>
      cases hstep
      refine h.created hc hnone ?_ ?_ ?_ <;> cases c.stamped <;> simp [Phase.owned, Phase.condemned]
    next =>
      cases hstep
      exact h.setPhase_blank k (.inr (.inl rfl))
  case h_2 file hphase =>
    cases hstep
    refine h.setPhase (by simp) (by simp [Phase.condemned]) fun c' file' hc' halive' hfile => ?_
    refine h.owns k c' file' hc' halive' ?_
    rw [hphase]
    exact hfile
  case h_3 file incarnation hphase =>
    cases hstep
    obtain ⟨hcreator, hdir⟩ := h.owns k c file hc halive (by rw [hphase]; rfl)
    have hnames : (c.claimPayload incarnation).Names c.proc := by
      refine ⟨rfl, fun start hstart => ?_⟩
      unfold Call.claimPayload at hstart
      cases hprobed : c.probed <;> simp [hprobed] at hstart
      exact hstart.symm
    refine (h.write hc hcreator hnames).setPhase (by simp) (by simp [Phase.condemned]) ?_
    intro c' file' hc' _ hfile
    cases hc.symm.trans hc'
    cases hfile
    exact ⟨hcreator, hdir⟩
  case h_4 hphase =>
    cases hstep
    refine h.setPhase (fun file payload hread => ?_) (by simp [Phase.condemned]) (by simp [Phase.owned])
    injection hread with hread
    obtain ⟨file', -, hread⟩ := Option.bind_eq_some_iff.mp hread
    obtain ⟨payload', hpayload, hread⟩ := Option.bind_eq_some_iff.mp hread
    cases hread
    exact h.payload file payload hpayload
  case h_5 existing hphase =>
    by_cases hstale :
        claimIsStale (existing.map Prod.snd) s.isAlive (s.procStart answers) = true
    · rw [if_pos hstale] at hstep
      cases existing with
      | none => cases hstep
      | some existing =>
          obtain ⟨file, payload⟩ := existing
          obtain ⟨c', hc', hnames⟩ := h.judging k file payload hphase
          have hdead : c'.proc ∉ s.alive := by
            intro halive'
            rw [Option.map_some, claimIsStale_alive h halive' hnames] at hstale
            cases hstale
          cases hstep
          refine h.setPhase ?_ (fun file' hfile => ?_) ?_
          · cases c.stamped <;> simp
          · have : file' = file := by
              cases hs : c.stamped <;> rw [hs] at hfile <;> exact (Option.some.inj hfile).symm
            subst this
            exact ⟨c', hc', hdead⟩
          · cases c.stamped <;> simp [Phase.owned]
    · rw [if_neg hstale] at hstep
      cases hstep
      exact h.setPhase_blank k (.inr (.inr (.inr (.inl rfl))))
  case h_6 existing hphase =>
    cases hstep
    refine h.setPhase (by simp) (fun file hfile => ?_) (by simp [Phase.owned])
    exact h.condemned k file (by rw [hphase]; exact hfile)
  case h_7 existing incarnation hphase =>
    cases hstep
    refine Ok.setPhase_blank (h.remove ?_) k (.inr (.inr (.inr (.inr (.inr ⟨_, rfl⟩)))))
    intro j c' file hc' halive' hj hpath
    obtain ⟨hcreator, hdir⟩ := h.owns j c' file hc' halive' hj
    obtain ⟨c₀, hc₀, hdead⟩ := h.condemned k existing (by rw [hphase]; rfl)
    simp only [reapsRead, hphase, hc, decide_eq_true_eq] at hreap
    rw [hpath] at hdir
    rw [hdir] at hreap
    obtain hreap | hreap := hreap
    · cases hreap
    · cases hreap
      rw [callOf, hcreator, Option.bind_some, hc'] at hc₀
      cases hc₀
      exact hdead halive'
  case h_8 incarnation hphase =>
    split at hstep
    next hnone =>
      cases hstep
      exact h.created hc hnone rfl rfl (by simp)
    next =>
      cases hstep
      exact h.setPhase_blank k (.inr (.inr (.inr (.inl rfl))))
  all_goals cases hstep

theorem Ok.release (h : s.Ok) {k : Nat} {c : Call} (hc : s.calls[k]? = some c)
    (halive : c.proc ∈ s.alive) {file : Nat} (hphase : s.phase k = .holding file) :
    ((s.remove c.path).setPhase k .released).Ok := by
  obtain ⟨hcreator, hdir⟩ := h.owns k c file hc halive (by rw [hphase]; rfl)
  have hreleased : (s.setPhase k .released).Ok := h.setPhase_blank k (by simp)
  refine hreleased.remove ?_
  intro j c' file' hc' halive' hj hpath
  rw [setPhase_phase] at hj
  split_ifs at hj with hjk
  · cases hj
  · obtain ⟨hcreator', hdir'⟩ := h.owns j c' file' hc' halive' hj
    rw [hpath, hdir] at hdir'
    cases hdir'
    cases hcreator.symm.trans hcreator'
    exact hjk rfl

theorem Ok.step? {e : Step} (h : s.Ok) (hreap : s.reapsRead e = true)
    (hstep : s.step? e = some s') : s'.Ok := by
  cases e with
  | spawn p =>
      obtain ⟨⟨hnew, hpid⟩, hstep⟩ := guard_bind_eq_some.mp hstep
      cases hstep
      exact h.spawn hnew hpid
  | die p =>
      cases hstep
      exact h.die p
  | call c =>
      obtain ⟨⟨hc, -⟩, hstep⟩ := guard_bind_eq_some.mp hstep
      cases hstep
      exact h.call hc
  | advance k answers =>
      obtain ⟨c, hc, hstep⟩ := Option.bind_eq_some_iff.mp hstep
      obtain ⟨halive, hstep⟩ := guard_bind_eq_some.mp hstep
      exact h.advance? hc halive hreap hstep
  | release k =>
      obtain ⟨c, hc, hstep⟩ := Option.bind_eq_some_iff.mp hstep
      obtain ⟨halive, hstep⟩ := guard_bind_eq_some.mp hstep
      split at hstep
      next file hphase =>
        cases hstep
        exact h.release hc halive hphase
      next => cases hstep

theorem ok_new : ({} : Claims).Ok where
  distinct := by simp
  past := by simp
  callers := by simp
  payload := by simp
  judging := by simp
  condemned := by simp [Phase.condemned]
  owns := by simp

/-- A call of a live process that returned `Ok` and was not released. -/
def Holds (s : Claims) (k : Nat) (c : Call) (file : Nat) : Prop :=
  s.calls[k]? = some c ∧ c.proc ∈ s.alive ∧ s.phase k = .holding file

/-- In a run in which every reaper removes the file that it has read, or finds none, live
holders keep their claim files, and there is one at most for a name up to case. -/
theorem exclusive_of_reapsRead {steps : List Step} {s : Claims}
    (hreap : Meets step? reapsRead {} steps = true) (hrun : run? {} steps = some s) :
    (∀ k c file, s.Holds k c file → s.dir c.path = some file) ∧
      ∀ k c file k' c' file', s.Holds k c file → s.Holds k' c' file' →
        c.name.map toAsciiLowercase = c'.name.map toAsciiLowercase → k = k' := by
  have h : s.Ok := Meets.invariant (fun h hreap hstep => h.step? hreap hstep) ok_new hreap hrun
  have howns : ∀ {k c file}, s.Holds k c file →
      s.creators[file]? = some k ∧ s.dir c.path = some file := by
    rintro k c file ⟨hc, halive, hphase⟩
    exact h.owns k c file hc halive (by rw [hphase]; rfl)
  refine ⟨fun k c file hk => (howns hk).2, ?_⟩
  intro k c file k' c' file' hk hk' hname
  obtain ⟨hcreator, hdir⟩ := howns hk
  obtain ⟨hcreator', hdir'⟩ := howns hk'
  rw [Call.path, encodeClaimName_congr hname] at hdir
  cases hdir.symm.trans hdir'
  exact Option.some.inj (hcreator.symm.trans hcreator')

/-- Claimants of a name in two spellings; the first of them dies. -/
def dead : Call := { proc := ⟨10, 1000⟩, name := [119], stamped := false, probed := true }
def reaper : Call := { proc := ⟨11, 2000⟩, name := [87], stamped := true, probed := true }
def rival : Call := { proc := ⟨12, 3000⟩, name := [119], stamped := false, probed := true }

/-- A claim whose holder died, and two calls that have found it. -/
def deadHolder : List Step :=
  [.spawn dead.proc, .spawn reaper.proc, .spawn rival.proc, .call dead, .advance 0 true,
    .advance 0 true, .die dead.proc, .call reaper, .call rival, .advance 1 true, .advance 2 true]

def reapThenRead : List Step :=
  deadHolder ++ List.replicate 6 (Step.advance 1 true) ++ List.replicate 2 (Step.advance 2 true)

theorem exclusive_reapThenRead : ∃ s, run? {} reapThenRead = some s ∧ s.Holds 1 reaper 1 ∧
    s.phase 2 = .refused ∧ s.dir reaper.path = some 1 := by
  obtain ⟨s, hrun⟩ : ∃ s, run? {} reapThenRead = some s := ⟨_, rfl⟩
  have hholds : s.Holds 1 reaper 1 := by
    cases hrun
    exact ⟨rfl, by decide, rfl⟩
  refine ⟨s, hrun, hholds, ?_, (exclusive_of_reapsRead (by decide) hrun).1 1 reaper 1 hholds⟩
  cases hrun
  rfl

/-- Both read the claim and judge it before one of them has removed it: the second remove
takes the first one's claim away, and both hold the name. -/
theorem twoReapers_not_exclusive : ∃ s : Claims,
    run? {} (deadHolder ++ List.replicate 2 (Step.advance 1 true) ++ List.replicate 2 (Step.advance 2 true) ++
      List.replicate 4 (Step.advance 1 true) ++ List.replicate 3 (Step.advance 2 true)) = some s ∧
    s.Holds 1 reaper 1 ∧ s.Holds 2 rival 2 ∧ s.dir reaper.path = some 2 ∧
    reaper.name.map toAsciiLowercase = rival.name.map toAsciiLowercase := by
  refine ⟨_, rfl, ⟨rfl, ?_, rfl⟩, ⟨rfl, ?_, rfl⟩, rfl, rfl⟩ <;> decide

end Claims

end QuorumDispatch.Registry
