import Std.Data.String.ToNat
import QuorumDispatch.Lib.Json
import QuorumDispatch.Lib.Partial

/-!
The incarnations of a session name. A claim writes its incarnation into the claim file; the
next claim reads it there, once the holder is found dead, and counts on. The calls on one
name come one after another, and a call may die at any point.
-/

namespace QuorumDispatch.Registry.NameFence

open Lib

/-! ### The text of a claim -/

/-- `escape_debug`. Which characters are printed as they are is a table of the standard
library. -/
def escapeDebug (printable : Char → Bool) (c : Char) : List Char :=
  match c with
  | '\x00' => ['\\', '0']
  | '\t' => ['\\', 't']
  | '\r' => ['\\', 'r']
  | '\n' => ['\\', 'n']
  | '"' => ['\\', '"']
  | '\\' => ['\\', '\\']
  | _ => if printable c then [c] else "\\u\x7b".toList ++ Nat.toDigits 16 c.toNat ++ ['\x7d']

/-- The text of `{name:?}`. -/
def debugQuote (printable : Char → Bool) (name : String) : List Char :=
  '"' :: name.toList.flatMap (escapeDebug printable) ++ ['"']

structure Claimant where
  pid : UInt32
  start : Option Int64
  ts : Int64
  name : String
deriving DecidableEq

def Claimant.fields (printable : Char → Bool) (c : Claimant) : List Char :=
  "\x7b\"pid\":".toList ++ (toString c.pid).toList ++
    (match c.start with
      | some start => ",\"start\":".toList ++ (toString start.toInt).toList
      | none => []) ++
    ",\"timestamp\":".toList ++ (toString c.ts.toInt).toList ++ ",\"name\":".toList ++
    debugQuote printable c.name

def claimPayload (printable : Char → Bool) (c : Claimant) : List Char :=
  c.fields printable ++ ['\x7d']

def claimPayloadWithIncarnation (printable : Char → Bool) (c : Claimant) (incarnation : Nat) : List Char :=
  let base := claimPayload printable c
  if incarnation = 0 then base
  else base.dropLast ++ ",\"incarnation\":".toList ++ Nat.toDigits 10 incarnation ++ ['\x7d']

def claimIncarnation (serde : SerdeJson) (payload : Bytes) : Nat :=
  ((serde.fromSlice payload).bind fun v => v.u64Field "incarnation").getD 0

def nextClaimIncarnation (serde : SerdeJson) (file : Option Bytes) : Nat :=
  ((file.map (claimIncarnation serde)).getD 0 + 1) % 2 ^ 64

def startTimeSlackMs : Int64 := 120000

def claimIsStale (serde : SerdeJson) (existingPayload : Bytes) (isAlive : Int64 → Bool)
    (procStart : Int64 → Option Int64) : Bool :=
  let parsed := serde.fromSlice existingPayload
  match parsed.bind fun v => (v.get "pid").bind Json.asI64 with
  | some pid =>
      if !isAlive pid then true
      else
        match parsed.bind fun v => (v.get "start").bind Json.asI64 with
        | some claimedStart => (procStart pid).any fun cur => claimedStart + startTimeSlackMs < cur
        | none => false
  | none => false

/-! ### Claims -/

/-- Where a call dies, if it does: between the removal of a stale file and the creation of
its own, or after it wrote some bytes of its payload. -/
inductive Death where
  | afterRemove
  | afterWrite (bytes : Nat)
deriving DecidableEq

structure Probes where
  isAlive : Int64 → Bool
  procStart : Int64 → Option Int64

/-- The file that a call creates, and the incarnation that it returns. -/
def writeClaim (payload : Bytes) (incarnation : Nat) (death : Option Death) : Option Nat × Option Bytes :=
  match death with
  | some (.afterWrite bytes) => (none, some (payload.take bytes))
  | _ => (some incarnation, some payload)

/-- `claim_name_with_incarnation` on the claim file of the name. -/
def claimNameWithIncarnation (serde : SerdeJson) (probes : Probes) (makePayload : Nat → Bytes)
    (death : Option Death) (file : Option Bytes) : Option Nat × Option Bytes :=
  match file with
  | none =>
      -- the file is read that was just created
      let incarnation := max (nextClaimIncarnation serde (some [])) 1
      writeClaim (makePayload incarnation) incarnation death
  | some existing =>
      if claimIsStale serde existing probes.isAlive probes.procStart then
        let incarnation := nextClaimIncarnation serde (some existing)
        if death = some .afterRemove then (none, none)
        else writeClaim (makePayload incarnation) incarnation death
      else (none, some existing)

/-- `claim_name`, which knows of no incarnation: the file that it leaves. -/
def claimName (serde : SerdeJson) (probes : Probes) (payload : Bytes) (death : Option Death)
    (file : Option Bytes) : Option Bytes :=
  match file with
  | none => (writeClaim payload 0 death).2
  | some existing =>
      if claimIsStale serde existing probes.isAlive probes.procStart then
        if death = some .afterRemove then none else (writeClaim payload 0 death).2
      else some existing

/-- The claim file of a name, and the incarnations that claims were given, newest first. -/
structure Fence where
  file : Option Bytes
  given : List Nat := []
deriving DecidableEq

inductive Step where
  | claim (c : Claimant) (probes : Probes) (death : Option Death)
  | legacyClaim (c : Claimant) (probes : Probes) (death : Option Death)
  | release

def Step.claimant? : Step → Option Claimant
  | .claim c _ _ | .legacyClaim c _ _ => some c
  | .release => none

section Runs

variable (serde : SerdeJson) (printable : Char → Bool)

def payload (c : Claimant) (incarnation : Nat) : Bytes :=
  encodeUtf8 (claimPayloadWithIncarnation printable c incarnation)

def step (s : Fence) : Step → Fence
  | .claim c probes death =>
      let (incarnation, file) :=
        claimNameWithIncarnation serde probes (payload printable c) death s.file
      { file, given := incarnation.toList ++ s.given }
  | .legacyClaim c probes death =>
      { s with file := claimName serde probes (payload printable c 0) death s.file }
  | .release => { s with file := none }

def run (s : Fence) (steps : List Step) : Fence := steps.foldl (step serde printable) s

/-- What is relied on of the JSON library, at the payloads of a claimant: one that is read
has its own incarnation, and one that was cut off is not read. -/
structure ReadsAt (c : Claimant) : Prop where
  incarnation : ∀ n < 2 ^ 64, ∀ v, serde.fromSlice (payload printable c n) = some v →
    (v.u64Field "incarnation").getD 0 = n
  torn : ∀ n, ∀ p, p <+: payload printable c n → p ≠ payload printable c n → serde.fromSlice p = none

/-- A step does not put the count back. Once an incarnation was given, a claim finds the file
there, and not at the largest incarnation, and a legacy claim replaces no file. -/
def keepsCount (s : Fence) : Step → Bool
  | .claim _ probes _ =>
      s.given.isEmpty || s.file.any fun existing =>
        !claimIsStale serde existing probes.isAlive probes.procStart ||
          claimIncarnation serde existing + 1 < 2 ^ 64
  | .legacyClaim _ probes _ =>
      s.given.isEmpty ||
        s.file.any fun existing => !claimIsStale serde existing probes.isAlive probes.procStart
  | .release => true

/-- The incarnations that were given increase, and a file that can be reaped has one that is
no less. -/
structure Counts (s : Fence) : Prop where
  increasing : s.given.Pairwise (· > ·)
  file : ∀ existing ∈ s.file, (serde.fromSlice existing).isSome →
    ∀ n ∈ s.given, n ≤ claimIncarnation serde existing

end Runs

variable {serde : SerdeJson} {printable : Char → Bool} {s : Fence} {c : Claimant}

theorem isSome_of_claimIsStale {existing : Bytes} {isAlive : Int64 → Bool}
    {procStart : Int64 → Option Int64} (h : claimIsStale serde existing isAlive procStart = true) :
    (serde.fromSlice existing).isSome := by
  cases hparsed : serde.fromSlice existing with
  | some v => rfl
  | none =>
      unfold claimIsStale at h
      rw [hparsed] at h
      cases h

theorem claimIncarnation_nil (hreads : ReadsAt serde printable c) : claimIncarnation serde [] = 0 := by
  have hnil : ([] : Bytes) ≠ payload printable c 0 := by
    intro h
    have htext : [] = claimPayload printable c := encodeUtf8_injective h
    simp [claimPayload] at htext
  unfold claimIncarnation
  rw [hreads.torn 0 [] (List.nil_prefix) hnil]
  rfl

theorem claimIncarnation_take (hreads : ReadsAt serde printable c) {n : Nat} (hn : n < 2 ^ 64)
    (bytes : Nat) (hread : (serde.fromSlice ((payload printable c n).take bytes)).isSome) :
    claimIncarnation serde ((payload printable c n).take bytes) = n := by
  by_cases hwhole : (payload printable c n).take bytes = payload printable c n
  · rw [hwhole] at hread ⊢
    obtain ⟨v, hv⟩ := Option.isSome_iff_exists.mp hread
    have hfield := hreads.incarnation n hn v hv
    rw [claimIncarnation, hv]
    exact hfield
  · rw [hreads.torn n _ (List.take_prefix _ _) hwhole] at hread
    cases hread

theorem Counts.write (hreads : ReadsAt serde printable c) {n : Nat} (hn : n < 2 ^ 64) {given : List Nat}
    (hincreasing : given.Pairwise (· > ·)) (habove : ∀ m ∈ given, m < n) (death : Option Death) :
    Counts serde {
      file := (writeClaim (payload printable c n) n death).2
      given := (writeClaim (payload printable c n) n death).1.toList ++ given } := by
  have hfile : ∀ bytes, (serde.fromSlice ((payload printable c n).take bytes)).isSome →
      ∀ m ∈ n :: given, m ≤ claimIncarnation serde ((payload printable c n).take bytes) := by
    intro bytes hread m hm
    rw [claimIncarnation_take hreads hn bytes hread]
    rcases List.mem_cons.mp hm with rfl | hm
    · exact Nat.le_refl _
    · exact Nat.le_of_lt (habove m hm)
  have hwhole : Counts serde { file := some (payload printable c n), given := n :: given } := by
    refine ⟨List.pairwise_cons.mpr ⟨habove, hincreasing⟩, ?_⟩
    rintro existing ⟨⟩
    have htake := hfile (payload printable c n).length
    rwa [List.take_length] at htake
  cases death with
  | none => exact hwhole
  | some death =>
      cases death with
      | afterRemove => exact hwhole
      | afterWrite bytes =>
          refine ⟨hincreasing, ?_⟩
          rintro existing ⟨⟩ hread m hm
          exact hfile bytes hread m (List.mem_cons_of_mem _ hm)

theorem Counts.claim (h : Counts serde s) (hreads : ReadsAt serde printable c) {probes : Probes}
    {death : Option Death} (hkeeps : keepsCount serde s (.claim c probes death) = true) :
    Counts serde (step serde printable s (.claim c probes death)) := by
  obtain ⟨file, given⟩ := s
  cases file with
  | none =>
      -- a file is created while no incarnation was given
      have hgiven : given = [] := by simpa [keepsCount] using hkeeps
      subst hgiven
      have hone : max (nextClaimIncarnation serde (some [])) 1 = 1 := by
        simp [nextClaimIncarnation, claimIncarnation_nil hreads]
      have hwrite := Counts.write hreads (n := 1) (by decide) .nil (by simp) death
      simpa only [step, claimNameWithIncarnation, hone] using hwrite
  | some existing =>
      cases hstale : claimIsStale serde existing probes.isAlive probes.procStart with
      | false =>
          have hsame : step serde printable { file := some existing, given } (.claim c probes death) =
              { file := some existing, given } := by
            simp [step, claimNameWithIncarnation, hstale]
          rw [hsame]
          exact h
      | true =>
          by_cases hdeath : death = some .afterRemove
          · subst hdeath
            refine ⟨?_, ?_⟩
            · simpa [step, claimNameWithIncarnation, hstale] using h.increasing
            · simp [step, claimNameWithIncarnation, hstale]
          · have hread := isSome_of_claimIsStale hstale
            have habove : ∀ m ∈ given, m < nextClaimIncarnation serde (some existing) := by
              intro m hm
              have hle := h.file existing rfl hread m hm
              have hroom : claimIncarnation serde existing + 1 < 2 ^ 64 := by
                cases given with
                | nil => cases hm
                | cons => simpa [keepsCount, hstale] using hkeeps
              simp only [nextClaimIncarnation, Option.map_some, Option.getD_some,
                Nat.mod_eq_of_lt hroom]
              exact Nat.lt_succ_of_le hle
            have hsmall : nextClaimIncarnation serde (some existing) < 2 ^ 64 := Nat.mod_lt _ (by decide)
            have hwrite := Counts.write hreads hsmall h.increasing habove death
            simpa only [step, claimNameWithIncarnation, hstale, hdeath, if_true, if_false] using hwrite

theorem Counts.legacyClaim (h : Counts serde s) {probes : Probes} {death : Option Death}
    (hkeeps : keepsCount serde s (.legacyClaim c probes death) = true) :
    Counts serde (step serde printable s (.legacyClaim c probes death)) := by
  obtain ⟨file, given⟩ := s
  by_cases hgiven : given = []
  · subst hgiven
    exact ⟨.nil, by simp [step]⟩
  · -- the claim is refused
    cases file with
    | none => simp [keepsCount, hgiven] at hkeeps
    | some existing =>
        have hstale : claimIsStale serde existing probes.isAlive probes.procStart = false := by
          simpa [keepsCount, hgiven] using hkeeps
        have hsame : step serde printable { file := some existing, given } (.legacyClaim c probes death) =
            { file := some existing, given } := by
          simp [step, claimName, hstale]
        rw [hsame]
        exact h

theorem Counts.step (h : Counts serde s) {e : Step}
    (hreads : ∀ c ∈ e.claimant?, ReadsAt serde printable c) (hkeeps : keepsCount serde s e = true) :
    Counts serde (step serde printable s e) := by
  cases e with
  | claim c probes death => exact h.claim (hreads c rfl) hkeeps
  | legacyClaim c probes death => exact h.legacyClaim hkeeps
  | release => exact ⟨h.increasing, by rintro existing ⟨⟩⟩

/-! ### Payloads of one claimant -/

/-- The part of a payload between its fields and the brace that closes it. -/
def fenceField (n : Nat) : List Char :=
  if n = 0 then [] else ",\"incarnation\":".toList ++ Nat.toDigits 10 n

theorem payload_eq (printable : Char → Bool) (c : Claimant) (n : Nat) :
    payload printable c n = encodeUtf8 (c.fields printable) ++ (encodeUtf8 (fenceField n) ++ [125]) := by
  have hbrace : encodeUtf8 ['\x7d'] = [125] := by decide
  rw [← hbrace, ← encodeUtf8_append, ← encodeUtf8_append, payload]
  congr 1
  unfold claimPayloadWithIncarnation claimPayload fenceField
  by_cases hn : n = 0 <;> simp [hn]

theorem brace_notMem_fenceField (n : Nat) : 125 ∉ encodeUtf8 (fenceField n) := by
  have hdigit : ∀ c ∈ Nat.toDigits 10 n, 125 ∉ String.utf8EncodeChar c := by
    intro c hc
    have hisDigit := Nat.isDigit_of_mem_toDigits (by omega) (by omega) hc
    have hall : ∀ k : Fin 10, 125 ∉ String.utf8EncodeChar (Char.ofNat (48 + k)) := by decide
    simp only [Char.isDigit, Bool.and_eq_true, decide_eq_true_eq] at hisDigit
    have hlow : 48 ≤ c.toNat := hisDigit.1
    have hhigh : c.toNat ≤ 57 := hisDigit.2
    have hchar := hall ⟨c.toNat - 48, by omega⟩
    rwa [show 48 + (c.toNat - 48) = c.toNat by omega, Char.ofNat_toNat] at hchar
  unfold fenceField
  split
  · simp
  · rw [encodeUtf8_append, List.mem_append, not_or]
    refine ⟨by decide, fun hmem => ?_⟩
    obtain ⟨c, hc, hbyte⟩ := List.mem_flatMap.mp hmem
    exact hdigit c hc hbyte

theorem eq_of_prefix_of_notMem {xs ys : Bytes} {b : UInt8} (h : xs ++ [b] <+: ys ++ [b]) (hb : b ∉ ys) :
    xs = ys := by
  obtain ⟨rest, hrest⟩ := h
  rcases List.eq_nil_or_concat rest with rfl | ⟨rest, last, rfl⟩
  · rw [List.append_nil] at hrest
    exact List.append_cancel_right hrest
  · rw [List.concat_eq_append, ← List.append_assoc] at hrest
    have hys := (List.append_inj' hrest rfl).1
    exact absurd (hys ▸ by simp) hb

theorem payload_prefixed {m n : Nat} (h : payload printable c m <+: payload printable c n) : m = n := by
  rw [payload_eq, payload_eq, List.prefix_append_right_inj] at h
  have hfield := encodeUtf8_injective (eq_of_prefix_of_notMem h (brace_notMem_fenceField n))
  unfold fenceField at hfield
  by_cases hm : m = 0 <;> by_cases hn : n = 0
  · rw [hm, hn]
  · simp [hm, hn] at hfield
  · simp [hm, hn] at hfield
  · rw [if_neg hm, if_neg hn, List.append_cancel_left_eq] at hfield
    have hrepr : Nat.repr m = Nat.repr n := congrArg String.ofList hfield
    exact Nat.repr_injective hrepr

theorem payload_injective {m n : Nat} (h : payload printable c m = payload printable c n) : m = n := by
  apply payload_prefixed
  rw [h]

def ascii (c : Char) : Bool := 32 ≤ c.toNat && c.toNat < 127

def holder : Claimant := { pid := 7, start := none, ts := 0, name := "w" }

def holderSerde : SerdeJson where
  toString := Json.compact
  fromSlice bytes :=
    let read := fun n : Int => Json.obj
      [("pid", .num 7), ("timestamp", .num 0), ("name", .str "w"), ("incarnation", .num n)]
    if bytes = payload ascii holder 1 then some (read 1)
    else if bytes = payload ascii holder 2 then some (read 2)
    else none

theorem holderSerde_readsAt : ReadsAt holderSerde ascii holder where
  incarnation n _ v hread := by
    unfold holderSerde at hread
    dsimp only at hread
    split at hread
    next h1 =>
      cases hread
      exact (payload_injective h1).symm
    next =>
      split at hread
      next h2 =>
        cases hread
        exact (payload_injective h2).symm
      next => cases hread
  torn n p hpre hne := by
    have hother : ∀ m, p ≠ payload ascii holder m := by
      rintro m rfl
      exact hne (congrArg _ (payload_prefixed hpre))
    simp [holderSerde, hother]

/-! ### The fence -/

/-- If no step puts the count back, every claim that succeeds is given an incarnation above
all that were given before, from any claim file on and whatever dies at which point. -/
theorem run_increasing (serde : SerdeJson) (printable : Char → Bool) (file : Option Bytes)
    (steps : List Step) (hreads : ∀ e ∈ steps, ∀ c ∈ e.claimant?, ReadsAt serde printable c)
    (hkeeps : ∀ pre e post, steps = pre ++ e :: post →
      keepsCount serde (run serde printable { file } pre) e = true) :
    (run serde printable { file } steps).given.Pairwise (· > ·) := by
  have h : Counts serde (run serde printable { file } steps) := by
    induction steps using List.reverseRecOn with
    | nil => exact ⟨.nil, by simp [run]⟩
    | append_singleton steps e ih =>
        have hsteps := ih (fun e he => hreads e (List.mem_append_left _ he)) fun pre e' post heq =>
          hkeeps pre e' (post ++ [e]) (by simp [heq])
        have hlast := hsteps.step (hreads e (by simp)) (hkeeps steps e [] rfl)
        rwa [run, List.foldl_append]
  exact h.increasing

def dead : Probes := { isAlive := fun _ => false, procStart := fun _ => none }

def reaped : List Step := [.claim holder dead none, .claim holder dead none]

theorem run_increasing_reaped : (run holderSerde ascii { file := none } reaped).given.Pairwise (· > ·) := by
  refine run_increasing holderSerde ascii none reaped ?_ ?_
  · intro e he c hc
    have hholder : c = holder := by
      simp only [reaped, List.mem_cons, List.not_mem_nil, or_false, or_self] at he
      subst he
      cases hc
      rfl
    exact hholder ▸ holderSerde_readsAt
  · intro pre e post heq
    rcases pre with _ | ⟨first, _ | ⟨second, pre⟩⟩
    · cases heq
      decide
    · cases heq
      decide
    · cases pre <;> cases heq

def reclaimed : List Step := [.claim holder dead none, .release, .claim holder dead none]

theorem reclaimed_not_increasing : ¬ ∀ (file : Option Bytes) (steps : List Step),
    (∀ e ∈ steps, ∀ c ∈ e.claimant?, ReadsAt holderSerde ascii c) →
      (run holderSerde ascii { file } steps).given.Pairwise (· > ·) := by
  intro h
  have hincreasing := h none reclaimed (by
    intro e he c hc
    have hholder : c = holder := by
      simp only [reclaimed, List.mem_cons, List.not_mem_nil, or_false] at he
      rcases he with rfl | rfl | rfl <;> cases hc <;> rfl
    exact hholder ▸ holderSerde_readsAt)
  have hgiven : (run holderSerde ascii { file := none } reclaimed).given = [1, 1] := by decide
  rw [hgiven] at hincreasing
  simp at hincreasing

end QuorumDispatch.Registry.NameFence
