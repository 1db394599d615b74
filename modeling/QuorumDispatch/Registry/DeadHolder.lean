import QuorumDispatch.Registry.NameFence

/-!
Claims whose holder died. A claim that is found is reaped if its text can be read and names a
process that is gone. A text that was cut off can not be read, and is honored: which claims come
free again is a matter of how far the holder got with its own.

The text is put together by hand and read by the JSON library, so the first thing is that for the
names that can be created it is the text of an object.
-/

namespace QuorumDispatch.Registry.NameFence

open Lib

/-! ### Names -/

/-- The characters that `validate_session_name` lets through. -/
def isNameChar (ch : Char) : Bool :=
  ch.isAlphanum || ch == '_' || ch == '.' || ch == '-'

def validateSessionName (name : String) : Bool :=
  !name.toList.isEmpty && name.toList.all isNameChar

def PrintsNames (printable : Char → Bool) : Prop := ∀ ch, isNameChar ch = true → printable ch = true

/-! ### The text as JSON -/

def claimValue (c : Claimant) (incarnation : Nat) : Json :=
  .obj ([("pid", Json.num c.pid.toNat)] ++ (c.start.map fun start => ("start", Json.num start.toInt)).toList ++
    [("timestamp", Json.num c.ts.toInt), ("name", Json.str c.name)] ++
    (if incarnation = 0 then [] else [("incarnation", Json.num incarnation)]))

/-- The documented behaviour of the library at a payload: the text of the object is read as the
object, and no part of it from its start is a text. -/
structure ReadsClaim (serde : SerdeJson) (c : Claimant) (incarnation : Nat) : Prop where
  whole : serde.fromSlice (encodeUtf8 (claimValue c incarnation).compact) =
    some (claimValue c incarnation)
  torn : ∀ p, p <+: encodeUtf8 (claimValue c incarnation).compact →
    p ≠ encodeUtf8 (claimValue c incarnation).compact → serde.fromSlice p = none

section Text

variable {printable : Char → Bool} {c : Claimant}

theorem isNameChar_range {ch : Char} (h : isNameChar ch = true) :
    45 ≤ ch.toNat ∧ ch.toNat ≤ 122 := by
  delta isNameChar Char.isAlphanum Char.isAlpha Char.isUpper Char.isLower Char.isDigit at h
  simp only [Bool.or_eq_true, Bool.and_eq_true, decide_eq_true_eq, beq_iff_eq, ge_iff_le,
    UInt32.le_iff_toNat_le] at h
  rcases h with (((((h | h) | h) | rfl) | rfl) | rfl)
  · exact ⟨le_trans (by decide) h.1, le_trans h.2 (by decide)⟩
  · exact ⟨le_trans (by decide) h.1, le_trans h.2 (by decide)⟩
  · exact ⟨le_trans (by decide) h.1, le_trans h.2 (by decide)⟩
  all_goals decide

theorem escape_of_isNameChar {ch : Char} (hprint : PrintsNames printable)
    (h : isNameChar ch = true) : escapeDebug printable ch = [ch] ∧ Json.escape ch = [ch] := by
  have hspecial : ∀ d : Char, isNameChar d = false → ch ≠ d := by
    rintro d hd rfl
    rw [h] at hd
    cases hd
  have hlow := (isNameChar_range h).1
  constructor
  · unfold escapeDebug
    split
    · exact absurd rfl (hspecial _ (by decide))
    · exact absurd rfl (hspecial _ (by decide))
    · exact absurd rfl (hspecial _ (by decide))
    · exact absurd rfl (hspecial _ (by decide))
    · exact absurd rfl (hspecial _ (by decide))
    · exact absurd rfl (hspecial _ (by decide))
    · rw [if_pos (hprint ch h)]
  · unfold Json.escape
    split
    · exact absurd rfl (hspecial _ (by decide))
    · exact absurd rfl (hspecial _ (by decide))
    · exact absurd rfl (hspecial _ (by decide))
    · exact absurd rfl (hspecial _ (by decide))
    · exact absurd rfl (hspecial _ (by decide))
    · rw [if_neg (by omega), if_neg (by omega), if_neg (by omega)]

theorem debugQuote_eq {name : String} (hprint : PrintsNames printable)
    (h : validateSessionName name = true) : debugQuote printable name = Json.quote name := by
  have hall : ∀ ch ∈ name.toList, isNameChar ch = true := by
    rw [validateSessionName, Bool.and_eq_true, List.all_eq_true] at h
    exact h.2
  have hsame : name.toList.flatMap (escapeDebug printable) = name.toList.flatMap Json.escape := by
    apply List.flatMap_congr
    intro ch hch
    obtain ⟨hdebug, hjson⟩ := escape_of_isNameChar hprint (hall ch hch)
    rw [hdebug, hjson]
  rw [debugQuote, Json.quote, hsame, List.cons_append]

theorem toList_natRepr (n : Nat) : n.repr.toList = Nat.toDigits 10 n := String.toList_ofList

theorem toList_toString_int (n : Int) : (toString n).toList = (Json.num n).compact := by
  rw [Int.toString_eq_repr, Int.repr_eq_if, Json.compact]
  by_cases hn : n < 0
  · have habs : n.natAbs = (-n).toNat := by omega
    rw [if_neg (by omega), if_pos hn, String.toList_append, toList_natRepr, habs]
    rfl
  · have habs : n.natAbs = n.toNat := by omega
    rw [if_pos (by omega), if_neg hn, toList_natRepr, habs]

theorem toList_toString_uint32 (n : UInt32) : (toString n).toList = (Json.num n.toNat).compact := by
  rw [← toList_toString_int]
  rfl

theorem compact_num_natCast (n : Nat) : (Json.num n).compact = Nat.toDigits 10 n := by
  rw [Json.compact, if_neg (by omega), Int.natAbs_natCast]

theorem payload_keys :
    "\x7b\"pid\":".toList = '\x7b' :: (Json.quote "pid" ++ [':']) ∧
      ",\"start\":".toList = ',' :: (Json.quote "start" ++ [':']) ∧
      ",\"timestamp\":".toList = ',' :: (Json.quote "timestamp" ++ [':']) ∧
      ",\"name\":".toList = ',' :: (Json.quote "name" ++ [':']) ∧
      ",\"incarnation\":".toList = ',' :: (Json.quote "incarnation" ++ [':']) := by
  decide

theorem claimPayload_eq (hprint : PrintsNames printable)
    (hname : validateSessionName c.name = true) (n : Nat) :
    claimPayloadWithIncarnation printable c n = (claimValue c n).compact := by
  obtain ⟨hpid, hstart, htimestamp, hnamed, hincarnation⟩ := payload_keys
  have hfields : c.fields printable = '\x7b' :: (Json.quote "pid" ++ ':' :: (Json.num c.pid.toNat).compact ++
      (c.start.elim [] fun start => ',' :: (Json.quote "start" ++ ':' :: (Json.num start.toInt).compact)) ++
      ',' :: (Json.quote "timestamp" ++ ':' :: (Json.num c.ts.toInt).compact) ++
      ',' :: (Json.quote "name" ++ ':' :: (Json.str c.name).compact)) := by
    have hstr : (Json.str c.name).compact = Json.quote c.name := by rw [Json.compact]
    unfold Claimant.fields
    simp only [hpid, htimestamp, hnamed, toList_toString_uint32, hstr, toList_toString_int,
      debugQuote_eq hprint hname]
    cases c.start with
    | none => simp only [Option.elim, List.append_assoc, List.cons_append, List.nil_append, List.append_nil]
    | some start =>
        dsimp only [Option.elim]
        simp only [hstart, List.append_assoc, List.cons_append, List.nil_append]
  have hbase : claimPayloadWithIncarnation printable c n = c.fields printable ++
      (if n = 0 then [] else ',' :: (Json.quote "incarnation" ++ ':' :: (Json.num n).compact)) ++
        ['\x7d'] := by
    unfold claimPayloadWithIncarnation claimPayload
    by_cases hn : n = 0
    · simp [hn]
    · simp only [hn, if_false, List.dropLast_concat]
      rw [hincarnation, compact_num_natCast]
      simp
  rw [hbase, hfields]
  cases hs : c.start with
  | none =>
      by_cases hn : n = 0
      · simp [claimValue, hs, hn, Json.compact, Json.compactEntries]
      · simp [claimValue, hs, hn, Json.compact, Json.compactEntries]
  | some start =>
      by_cases hn : n = 0
      · simp [claimValue, hs, hn, Json.compact, Json.compactEntries]
      · simp [claimValue, hs, hn, Json.compact, Json.compactEntries]

end Text

/-! ### Calls -/

/-- `claim_name` on the claim file of the name. Its payload has no incarnation. -/
def claimNameResult (serde : SerdeJson) (probes : Probes) (payload : Bytes) (death : Option Death)
    (file : Option Bytes) : Option Nat × Option Bytes :=
  match file with
  | none => writeClaim payload 0 death
  | some existing =>
      if claimIsStale serde existing probes.isAlive probes.procStart then
        if death = some .afterRemove then (none, none) else writeClaim payload 0 death
      else (none, some existing)

inductive ClaimFn where
  | claimName
  | claimNameWithIncarnation
deriving DecidableEq, Repr

section Calls

variable (serde : SerdeJson) (printable : Char → Bool)

/-- What a call returns, if it wins the name, and the file that it leaves. -/
def claimBy (probes : Probes) (f : ClaimFn) (c : Claimant) (death : Option Death)
    (file : Option Bytes) : Option Nat × Option Bytes :=
  match f with
  | .claimName => claimNameResult serde probes (payload printable c 0) death file
  | .claimNameWithIncarnation =>
      claimNameWithIncarnation serde probes (payload printable c) death file

def ClaimFn.incarnation (f : ClaimFn) (file : Option Bytes) : Nat :=
  match f, file with
  | .claimName, _ => 0
  | .claimNameWithIncarnation, none => max (nextClaimIncarnation serde (some [])) 1
  | .claimNameWithIncarnation, some existing => nextClaimIncarnation serde (some existing)

end Calls

def Gone (probes : Probes) (c : Claimant) : Prop :=
  probes.isAlive (.ofInt c.pid.toNat) = false ∨
    ∃ claimed cur, c.start = some claimed ∧ probes.procStart (.ofInt c.pid.toNat) = some cur ∧
      claimed.toInt + startTimeSlackMs.toInt < cur.toInt

/-- The start that is claimed and the slack add up to a number of 64 bits. -/
def StartFits (c : Claimant) : Prop :=
  ∀ claimed, c.start = some claimed → claimed.toInt + startTimeSlackMs.toInt < 2 ^ 63

section Calls

variable {serde : SerdeJson} {printable : Char → Bool} {probes : Probes} {f : ClaimFn} {c : Claimant}
  {n : Nat} {death : Option Death} {file : Option Bytes}

theorem claimBy_eq :
    claimBy serde printable probes f c death file =
      match file with
      | none => writeClaim (payload printable c (f.incarnation serde none)) (f.incarnation serde none) death
      | some existing =>
          if claimIsStale serde existing probes.isAlive probes.procStart then
            if death = some .afterRemove then (none, none)
            else writeClaim (payload printable c (f.incarnation serde (some existing)))
              (f.incarnation serde (some existing)) death
          else (none, some existing) := by
  cases f <;> cases file <;> rfl

theorem claimBy_leaves :
    (claimBy serde printable probes f c death file).2 = file ∨
      (claimBy serde printable probes f c death file).2 = none ∨
      ∃ bytes, (claimBy serde printable probes f c death file).2 =
        some ((payload printable c (f.incarnation serde file)).take bytes) := by
  have hwrite : ∀ (p : Bytes) (k : Nat), ∃ bytes, (writeClaim p k death).2 = some (p.take bytes) := by
    intro p k
    unfold writeClaim
    split
    · exact ⟨_, rfl⟩
    · exact ⟨p.length, by rw [List.take_length]⟩
  rw [claimBy_eq]
  cases file with
  | none => exact .inr (.inr (hwrite _ _))
  | some existing =>
      dsimp only
      split
      · split
        · exact .inr (.inl rfl)
        · exact .inr (.inr (hwrite _ _))
      · exact .inl rfl

theorem claimBy_free : (claimBy serde printable probes f c none none).1.isSome = true := by
  rw [claimBy_eq]
  rfl

theorem claimBy_stale {existing : Bytes}
    (h : claimIsStale serde existing probes.isAlive probes.procStart = true) :
    (claimBy serde printable probes f c none (some existing)).1.isSome = true := by
  rw [claimBy_eq]
  dsimp only
  rw [if_pos h, if_neg nofun]
  rfl

theorem claimBy_honored {existing : Bytes}
    (h : claimIsStale serde existing probes.isAlive probes.procStart = false) :
    claimBy serde printable probes f c none (some existing) = (none, some existing) := by
  rw [claimBy_eq]
  dsimp only
  rw [h]
  exact if_neg Bool.false_ne_true

/-! ### Payloads that are found -/

theorem get_claimValue_pid : (claimValue c n).get "pid" = some (.num c.pid.toNat) := by
  unfold claimValue
  cases c.start with
  | none => by_cases hn : n = 0 <;> simp [hn, Json.get]
  | some start => by_cases hn : n = 0 <;> simp [hn, Json.get]

theorem get_claimValue_start :
    (claimValue c n).get "start" = c.start.map fun start => .num start.toInt := by
  unfold claimValue
  cases c.start with
  | none => by_cases hn : n = 0 <;> simp [hn, Json.get]
  | some start => by_cases hn : n = 0 <;> simp [hn, Json.get]

theorem claimIsStale_of_pid {existing : Bytes} {isAlive : Int64 → Bool}
    {procStart : Int64 → Option Int64} {pid : Int64}
    (hpid : ((serde.fromSlice existing).bind fun v => (v.get "pid").bind Json.asI64) = some pid) :
    claimIsStale serde existing isAlive procStart =
      (!isAlive pid || ((serde.fromSlice existing).bind fun v => (v.get "start").bind Json.asI64).any
        fun claimed => (procStart pid).any fun cur => claimed + startTimeSlackMs < cur) := by
  unfold claimIsStale
  dsimp only
  rw [hpid]
  dsimp only
  cases isAlive pid with
  | false => rfl
  | true =>
      cases (serde.fromSlice existing).bind fun v => (v.get "start").bind Json.asI64 with
      | none => rfl
      | some claimed => rfl

theorem claimIsStale_payload_iff (hprint : PrintsNames printable)
    (hname : validateSessionName c.name = true) (hreads : ReadsClaim serde c n)
    (hfits : StartFits c) :
    claimIsStale serde (payload printable c n) probes.isAlive probes.procStart = true ↔
      Gone probes c := by
  have hread : serde.fromSlice (payload printable c n) = some (claimValue c n) := by
    rw [payload, claimPayload_eq hprint hname]
    exact hreads.whole
  have hpid : ((serde.fromSlice (payload printable c n)).bind fun v =>
      (v.get "pid").bind Json.asI64) = some (.ofInt c.pid.toNat) := by
    have hrange : -2 ^ 63 ≤ (c.pid.toNat : Int) ∧ (c.pid.toNat : Int) < 2 ^ 63 := by
      have hlt : c.pid.toNat < 2 ^ 32 := c.pid.toNat_lt
      omega
    rw [hread, Option.bind_some, get_claimValue_pid, Option.bind_some, Json.asI64, if_pos hrange]
  have hstart : ((serde.fromSlice (payload printable c n)).bind fun v =>
      (v.get "start").bind Json.asI64) = c.start := by
    rw [hread, Option.bind_some, get_claimValue_start]
    cases c.start with
    | none => rfl
    | some start => exact Json.asI64_num_toInt start
  have hlate : ∀ claimed cur, c.start = some claimed →
      (claimed + startTimeSlackMs < cur ↔ claimed.toInt + startTimeSlackMs.toInt < cur.toInt) := by
    intro claimed cur hclaimed
    have hslack : startTimeSlackMs.toInt = 120000 := by decide
    have hlow := claimed.le_toInt
    have hhigh := hfits claimed hclaimed
    have hsum : (claimed.toInt + startTimeSlackMs.toInt).bmod (2 ^ 64) =
        claimed.toInt + startTimeSlackMs.toInt := Int.bmod_eq_of_le (by omega) (by omega)
    rw [Int64.lt_iff_toInt_lt, Int64.toInt_add, hsum]
  rw [claimIsStale_of_pid hpid, hstart, Gone, Bool.or_eq_true, Bool.not_eq_true', Option.any_eq_true]
  refine or_congr_right ⟨?_, ?_⟩
  · rintro ⟨claimed, hclaimed, h⟩
    obtain ⟨cur, hcur, h⟩ := (Option.any_eq_true _ _).mp h
    exact ⟨claimed, cur, hclaimed, hcur, (hlate claimed cur hclaimed).mp (of_decide_eq_true h)⟩
  · rintro ⟨claimed, cur, hclaimed, hcur, h⟩
    exact ⟨claimed, hclaimed, (Option.any_eq_true _ _).mpr
      ⟨cur, hcur, decide_eq_true ((hlate claimed cur hclaimed).mpr h)⟩⟩

theorem claimIsStale_torn (hprint : PrintsNames printable)
    (hname : validateSessionName c.name = true) (hreads : ReadsClaim serde c n) {bytes : Nat}
    (hbytes : bytes < (payload printable c n).length) :
    claimIsStale serde ((payload printable c n).take bytes) probes.isAlive probes.procStart =
      false := by
  have hne : (payload printable c n).take bytes ≠ payload printable c n := by
    intro h
    have hlength := congrArg List.length h
    rw [List.length_take] at hlength
    omega
  have hnone : serde.fromSlice ((payload printable c n).take bytes) = none := by
    have htext : payload printable c n = encodeUtf8 (claimValue c n).compact := by
      rw [payload, claimPayload_eq hprint hname]
    rw [htext] at hne ⊢
    exact hreads.torn _ (List.take_prefix _ _) hne
  rw [← Bool.not_eq_true]
  intro h
  have hsome := isSome_of_claimIsStale h
  rw [hnone] at hsome
  cases hsome

end Calls

/-! ### Dead holders -/

/-- What a call leaves, wherever it dies: the file as it found it, no file, or its payload up to
some byte. A name without a file is won by the next claim. So is one with a whole payload exactly if
its holder is gone, and else the file stays. A payload that was cut off is honored. -/
theorem deadHolder {serde : SerdeJson} {printable : Char → Bool} (hprint : PrintsNames printable)
    (f : ClaimFn) (c : Claimant) (hname : validateSessionName c.name = true) (hfits : StartFits c)
    (probes : Probes) (death : Option Death) (found : Option Bytes)
    (hreads : ReadsClaim serde c (f.incarnation serde found)) :
    let whole := payload printable c (f.incarnation serde found)
    let left := (claimBy serde printable probes f c death found).2
    (left = found ∨ left = none ∨ ∃ bytes, left = some (whole.take bytes)) ∧
      ∀ f' c' probes',
        let next := claimBy serde printable probes' f' c' none left
        (left = none → next.1.isSome = true) ∧
        (left = some whole → (next.1.isSome = true ↔ Gone probes' c) ∧
          (¬ Gone probes' c → next.2 = left)) ∧
        ∀ bytes < whole.length, left = some (whole.take bytes) → next = (none, left) := by
  dsimp only
  refine ⟨claimBy_leaves, fun f' c' probes' => ⟨?_, ?_, ?_⟩⟩
  · intro hleft
    rw [hleft]
    exact claimBy_free
  · intro hleft
    have hstale := @claimIsStale_payload_iff _ _ probes' _ _ hprint hname hreads hfits
    rw [hleft]
    by_cases hgone : Gone probes' c
    · exact ⟨iff_of_true (claimBy_stale (hstale.mpr hgone)) hgone, fun h => absurd hgone h⟩
    · have hhonored := @claimBy_honored serde printable probes' f' c' _
        (Bool.not_eq_true _ ▸ mt hstale.mp hgone)
      rw [hhonored]
      exact ⟨iff_of_false Bool.false_ne_true hgone, fun _ => rfl⟩
  · intro bytes hbytes hleft
    rw [hleft]
    exact claimBy_honored (claimIsStale_torn hprint hname hreads hbytes)

def claimSerde (c : Claimant) (n : Nat) : SerdeJson := .knowing [claimValue c n]

theorem claimSerde_reads (c : Claimant) (n : Nat) : ReadsClaim (claimSerde c n) c n where
  whole := by simp [claimSerde, SerdeJson.knowing]
  torn p _ hne := by simp [claimSerde, SerdeJson.knowing, Ne.symm hne]

theorem ascii_printsNames : PrintsNames ascii := by
  intro ch h
  obtain ⟨hlow, hhigh⟩ := isNameChar_range h
  simp only [ascii, Bool.and_eq_true, decide_eq_true_eq]
  omega

/-- A claim that is there once its holder is dead. -/
theorem deadHolder_reclaimed :
    (claimBy (claimSerde holder 0) ascii dead .claimNameWithIncarnation holder none
      (claimBy (claimSerde holder 0) ascii dead .claimName holder none none).2).1.isSome = true := by
  have hspec := (deadHolder ascii_printsNames .claimName holder (by decide) (by nofun) dead none none
    (claimSerde_reads holder 0)).2 .claimNameWithIncarnation holder dead
  exact (hspec.2.1 rfl).1.mpr (.inl rfl)

/-- The holder died when it had created the file, and the name is not won again. -/
theorem deadHolder_torn :
    ¬ ∀ (serde : SerdeJson) (printable : Char → Bool) (f f' : ClaimFn) (c c' : Claimant)
      (probes probes' : Probes) (death : Option Death), PrintsNames printable →
        validateSessionName c.name = true → ReadsClaim serde c (f.incarnation serde none) →
          Gone probes' c → (claimBy serde printable probes' f' c' none
            (claimBy serde printable probes f c death none).2).1.isSome = true := by
  intro h
  have hwon := h (claimSerde holder 0) ascii .claimName .claimName holder holder dead dead
    (some (.afterWrite 0)) ascii_printsNames (by decide) (claimSerde_reads holder 0) (.inl rfl)
  revert hwon
  decide

end QuorumDispatch.Registry.NameFence
