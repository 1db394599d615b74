import QuorumDispatch.Lib.Text
import QuorumDispatch.Sessions.Join

/-!
The merge loses and duplicates nothing: every session id is on one row, or on two when an ACP row
and another live row share it, and the row is made of the source that the policy says.
-/

namespace QuorumDispatch.Sessions

open Lib
open Kill (SessionBranch)

/-! ### The policy -/

inductive Source where
  | live (e : RegistryEntry)
  | transcript (jf : TranscriptMeta)
  | tombstone (t : RegistryEntry)
  | codex (cold : CodexColdRow)
  | pi (jf : TranscriptMeta)
  | opencode (cold : OpencodeColdRow)

def Source.id : Source → String
  | live e | tombstone e => entrySid e
  | transcript jf | pi jf => jf.sessionId
  | codex cold => cold.id
  | opencode cold => cold.id

/-- The row is made of the source alone; a live row and a transcript may have a pane. -/
def Source.Makes (inputs : JoinInputs) : Source → Session → Prop
  | live e, r => ∃ z, (∀ pane ∈ z, pane ∈ inputs.zmxSessions) ∧ r = liveSession inputs e z
  | transcript jf, r => ∃ z, (∀ pane ∈ z, pane ∈ inputs.zmxSessions) ∧ r = coldSession inputs jf z
  | tombstone t, r => r = tombstonedSession inputs t
  | codex cold, r => r = codexSession cold
  | pi jf, r => r = piSession inputs jf
  | opencode cold, r => r = opencodeSession cold

def newest : List RegistryEntry → Option RegistryEntry := OrderedMap.reduce newer

section Policy

variable (inputs : JoinInputs) (opts : JoinOpts) (sid : String)

def liveWith (acp : Bool) : List RegistryEntry :=
  inputs.registry.filter fun e => entrySid e = sid ∧ providerClassIsAcp e = acp

def acpOverTranscript : Option RegistryEntry :=
  if inputs.transcripts.any (·.sessionId = sid) then
    ((tombstones inputs opts).filter providerClassIsAcp).find? (entrySid · = sid)
  else none

/-- The newest transcript of the id, the first of those that are as new. -/
def newestTranscript : Option TranscriptMeta :=
  (byMtime inputs.transcripts).find? (·.sessionId = sid)

def coldWinner : Option Source :=
  (((((acpOverTranscript inputs opts sid).map .tombstone).or
    ((newestTranscript inputs sid).map .transcript)).or
    (((tombstones inputs opts).find? (entrySid · = sid)).map .tombstone)).or
    ((inputs.codexCold.find? (·.id = sid)).map .codex)).or
    (((inputs.piCold.find? (·.sessionId = sid)).map .pi).or
    ((inputs.opencodeCold.find? (·.id = sid)).map .opencode))

/-- The newest live entry of each class, or else one other source. -/
def winners : List Source :=
  match [true, false].filterMap fun acp => newest (liveWith inputs sid acp) with
  | [] => (coldWinner inputs opts sid).toList
  | live => live.map .live

def Occurs : Prop :=
  sid ∈ inputs.registry.map entrySid ∨ sid ∈ inputs.transcripts.map (·.sessionId) ∨
    sid ∈ inputs.codexCold.map (·.id) ∨ sid ∈ inputs.piCold.map (·.sessionId) ∨
    sid ∈ inputs.opencodeCold.map (·.id) ∨ sid ∈ (tombstones inputs opts).map entrySid

end Policy

/-- The live entries of one class without an id and with the pid. -/
def unidentified (inputs : JoinInputs) (pid : Int64) (acp : Bool) : List RegistryEntry :=
  inputs.registry.filter fun e =>
    entrySid e = "" ∧ e.pid = some pid ∧ providerClassIsAcp e = acp

def MadeOf (inputs : JoinInputs) (sources : List Source) (rows : List Session) : Prop :=
  ∃ rows', rows'.Perm rows ∧ List.Forall₂ (Source.Makes inputs) sources rows'

structure MergeOk (inputs : JoinInputs) (opts : JoinOpts) (rows : List Session) : Prop where
  occurs : ∀ sid, sid ≠ "" → Occurs inputs opts sid → winners inputs opts sid ≠ []
  ids : ∀ sid, sid ≠ "" →
    MadeOf inputs (winners inputs opts sid) (rows.filter (·.sessionId = sid))
  unidentified : ∀ pid, MadeOf inputs
    (([true, false].filterMap fun acp => newest (unidentified inputs pid acp)).map .live)
    (rows.filter fun r => r.whichBranch = .liveRegistry ∧ r.sessionId = "" ∧ r.pid = some pid)
  panes : ∀ z ∈ inputs.zmxSessions, ∃ r ∈ rows, r.zmxName = some z.name

/-- No entry has, as its id, what an entry of its class without an id is known by. -/
def KeysApart (inputs : JoinInputs) : Prop :=
  ∀ e ∈ inputs.registry, ∀ e' ∈ inputs.registry, ∀ pid, entrySid e' = "" → e'.pid = some pid →
    providerClassIsAcp e = providerClassIsAcp e' → entrySid e ≠ unidentifiedKey pid

/-- Where an ACP tombstone is to win over the transcript of its id, the first tombstone of the id
shows the same row. -/
def AcpFirst (inputs : JoinInputs) (opts : JoinOpts) : Prop :=
  ∀ sid t t', sid ≠ "" → sid ∉ inputs.registry.map entrySid →
    acpOverTranscript inputs opts sid = some t →
    (tombstones inputs opts).find? (entrySid · = sid) = some t' →
    tombstonedSession inputs t' = tombstonedSession inputs t

variable {inputs : JoinInputs} {opts : JoinOpts} {sid : String} {rows rows' : List Session}

theorem Source.Makes.sessionId {s : Source} {r : Session} (h : s.Makes inputs r) :
    r.sessionId = s.id := by
  cases s with
  | live e | transcript jf =>
      obtain ⟨z, -, rfl⟩ := h
      rfl
  | tombstone | codex | pi | opencode =>
      cases h
      rfl

/-! ### Lists of rows -/

theorem madeOf_of_forall₂ {sources sources' : List Source} (hperm : sources.Perm sources')
    (hmade : List.Forall₂ (Source.Makes inputs) sources' rows) : MadeOf inputs sources rows := by
  obtain ⟨rows', hrows, hsame⟩ := List.perm_comp_forall₂ hperm hmade
  exact ⟨rows', hsame, hrows⟩

theorem MadeOf.perm {sources : List Source} (hmade : MadeOf inputs sources rows)
    (hperm : rows.Perm rows') : MadeOf inputs sources rows' := by
  obtain ⟨rows'', hsame, hrows⟩ := hmade
  exact ⟨rows'', hsame.trans hperm, hrows⟩

theorem MadeOf.length_eq {sources : List Source} (hmade : MadeOf inputs sources rows) :
    sources.length = rows.length := by
  obtain ⟨rows', hsame, hrows⟩ := hmade
  rw [hrows.length_eq, hsame.length_eq]

theorem MergeOk.perm (hok : MergeOk inputs opts rows) (hperm : rows.Perm rows') :
    MergeOk inputs opts rows' where
  occurs := hok.occurs
  ids sid hsid := (hok.ids sid hsid).perm (hperm.filter _)
  unidentified pid := (hok.unidentified pid).perm (hperm.filter _)
  panes z hz := by
    obtain ⟨r, hr, hname⟩ := hok.panes z hz
    exact ⟨r, hperm.subset hr, hname⟩

/-! ### Live rows -/

theorem newer_eq (old e : RegistryEntry) : newer old e = old ∨ newer old e = e := by
  unfold newer
  split
  · exact .inr rfl
  · exact .inl rfl

theorem mem_of_newest {es : List RegistryEntry} {e : RegistryEntry} (he : newest es = some e) :
    e ∈ es :=
  OrderedMap.mem_of_reduce newer_eq he

theorem mem_dedupe {registry : List RegistryEntry} {e : RegistryEntry} :
    e ∈ dedupe registry ↔ newest (registry.filter (dedupeKey · = dedupeKey e)) = some e :=
  OrderedMap.mem_values_collect newer_eq

theorem nodup_dedupe (registry : List RegistryEntry) : (dedupe registry).Nodup :=
  OrderedMap.nodup_values_collect newer_eq registry

theorem newest_isSome {es : List RegistryEntry} {e : RegistryEntry} (he : e ∈ es) :
    ∃ e', newest es = some e' := by
  cases es with
  | nil => cases he
  | cons x xs => exact ⟨_, rfl⟩

theorem filter_dedupe_perm {registry : List RegistryEntry} {P : RegistryEntry → Bool}
    {group : Bool → List RegistryEntry}
    (hgroup : ∀ e acp, e ∈ group acp → P e = true ∧ providerClassIsAcp e = acp ∧
      registry.filter (dedupeKey · = dedupeKey e) = group acp)
    (hcover : ∀ e ∈ registry, P e = true → e ∈ group (providerClassIsAcp e)) :
    ((dedupe registry).filter P).Perm ([true, false].filterMap fun acp => newest (group acp)) := by
  have hnewest : ∀ e acp, newest (group acp) = some e → providerClassIsAcp e = acp := fun e acp he =>
    (hgroup e acp (mem_of_newest he)).2.1
  have hnodup : ([true, false].filterMap fun acp => newest (group acp)).Nodup := by
    refine List.Nodup.filterMap (fun acp acp' e he he' => ?_) (by decide)
    rw [← hnewest e acp he, ← hnewest e acp' he']
  refine (List.perm_ext_iff_of_nodup ((nodup_dedupe registry).filter P) hnodup).mpr fun e => ?_
  rw [List.mem_filter, List.mem_filterMap]
  constructor
  · rintro ⟨he, hP⟩
    have hin : e ∈ registry := (List.mem_filter.mp (mem_of_newest (mem_dedupe.mp he))).1
    refine ⟨providerClassIsAcp e, by cases providerClassIsAcp e <;> decide, ?_⟩
    rw [← (hgroup e _ (hcover e hin hP)).2.2]
    exact mem_dedupe.mp he
  · rintro ⟨acp, -, he⟩
    obtain ⟨hP, -, hsame⟩ := hgroup e acp (mem_of_newest he)
    refine ⟨mem_dedupe.mpr ?_, hP⟩
    rw [hsame]
    exact he

theorem dedupeId_of_sid {e : RegistryEntry} (hsid : entrySid e ≠ "") : dedupeId e = entrySid e := by
  unfold entrySid at hsid
  unfold dedupeId nonempty entrySid
  cases hid : e.sessionId with
  | none => simp [hid] at hsid
  | some s =>
      rw [hid] at hsid
      simp only [Option.getD_some] at hsid
      simp [Option.filter, hsid]

theorem dedupeId_of_no_sid {e : RegistryEntry} (hsid : entrySid e = "") :
    dedupeId e = e.pid.elim "" unidentifiedKey := by
  have hnone : nonempty e.sessionId = none := by
    unfold entrySid at hsid
    unfold nonempty
    cases hid : e.sessionId with
    | none => rfl
    | some s =>
        rw [hid] at hsid
        simp only [Option.getD_some] at hsid
        simp [Option.filter, hsid]
  unfold dedupeId
  rw [hnone]
  cases e.pid <;> rfl

theorem unidentifiedKey_ne (pid : Int64) : unidentifiedKey pid ≠ "" := by
  unfold unidentifiedKey
  intro h
  exact absurd (String.append_eq_empty_iff.mp h).1 (by decide)

theorem unidentifiedKey_injective {pid pid' : Int64} (h : unidentifiedKey pid = unidentifiedKey pid') :
    pid = pid' :=
  Int64.toInt_inj.mp (intToString_injective ((String.append_right_inj _).mp h))

theorem filter_dedupeKey_sid (hkeys : KeysApart inputs) {e : RegistryEntry} (hin : e ∈ inputs.registry)
    (hsid : entrySid e ≠ "") :
    inputs.registry.filter (dedupeKey · = dedupeKey e) =
      liveWith inputs (entrySid e) (providerClassIsAcp e) := by
  refine List.filter_congr fun x hx => decide_eq_decide.mpr ?_
  unfold dedupeKey
  rw [Prod.mk.injEq, dedupeId_of_sid hsid]
  refine and_congr_left fun hclass => ?_
  by_cases hx' : entrySid x = ""
  · rw [dedupeId_of_no_sid hx', hx']
    refine iff_of_false ?_ (Ne.symm hsid)
    cases hpid : x.pid with
    | none => exact Ne.symm hsid
    | some pid => exact (hkeys e hin x hx pid hx' hpid hclass.symm).symm
  · rw [dedupeId_of_sid hx']

theorem filter_dedupeKey_unidentified (hkeys : KeysApart inputs) {e : RegistryEntry} {pid : Int64}
    (hin : e ∈ inputs.registry) (hsid : entrySid e = "") (hpid : e.pid = some pid) :
    inputs.registry.filter (dedupeKey · = dedupeKey e) =
      unidentified inputs pid (providerClassIsAcp e) := by
  refine List.filter_congr fun x hx => decide_eq_decide.mpr ?_
  unfold dedupeKey
  rw [Prod.mk.injEq, dedupeId_of_no_sid hsid, hpid, ← and_assoc]
  refine and_congr_left fun hclass => ?_
  change dedupeId x = unidentifiedKey pid ↔ _
  by_cases hx' : entrySid x = ""
  · rw [dedupeId_of_no_sid hx', and_iff_right hx']
    cases hxpid : x.pid with
    | none => exact iff_of_false (unidentifiedKey_ne pid).symm (by simp)
    | some pid' =>
        rw [Option.some.injEq]
        exact ⟨unidentifiedKey_injective, congrArg unidentifiedKey⟩
  · rw [dedupeId_of_sid hx']
    exact iff_of_false (hkeys x hx e hin pid hsid hpid hclass) fun h => hx' h.1

theorem mem_liveWith {acp : Bool} {e : RegistryEntry} :
    e ∈ liveWith inputs sid acp ↔
      e ∈ inputs.registry ∧ entrySid e = sid ∧ providerClassIsAcp e = acp := by
  rw [liveWith, List.mem_filter, decide_eq_true_eq]

theorem mem_unidentified {pid : Int64} {acp : Bool} {e : RegistryEntry} :
    e ∈ unidentified inputs pid acp ↔
      e ∈ inputs.registry ∧ entrySid e = "" ∧ e.pid = some pid ∧ providerClassIsAcp e = acp := by
  rw [unidentified, List.mem_filter, decide_eq_true_eq]

theorem dedupe_sid_perm (hkeys : KeysApart inputs) (hsid : sid ≠ "") :
    ((dedupe inputs.registry).filter (entrySid · = sid)).Perm
      ([true, false].filterMap fun acp => newest (liveWith inputs sid acp)) := by
  refine filter_dedupe_perm (fun e acp he => ?_) fun e hin he => ?_
  · obtain ⟨hin, rfl, rfl⟩ := mem_liveWith.mp he
    exact ⟨decide_eq_true rfl, rfl, filter_dedupeKey_sid hkeys hin hsid⟩
  · exact mem_liveWith.mpr ⟨hin, of_decide_eq_true he, rfl⟩

theorem dedupe_unidentified_perm (hkeys : KeysApart inputs) (pid : Int64) :
    ((dedupe inputs.registry).filter fun e => entrySid e = "" ∧ e.pid = some pid).Perm
      ([true, false].filterMap fun acp => newest (unidentified inputs pid acp)) := by
  refine filter_dedupe_perm (fun e acp he => ?_) fun e hin he => ?_
  · obtain ⟨hin, hnone, hpid, rfl⟩ := mem_unidentified.mp he
    exact ⟨decide_eq_true ⟨hnone, hpid⟩, rfl, filter_dedupeKey_unidentified hkeys hin hnone hpid⟩
  · obtain ⟨hnone, hpid⟩ := of_decide_eq_true he
    exact mem_unidentified.mpr ⟨hin, hnone, hpid, rfl⟩

/-! ### Panes -/

theorem pidMatch_mem {p : RegistryEntry} {z : MuxSession} (hz : pidMatch inputs p = some z) :
    z ∈ inputs.zmxSessions := by
  have hfind : ∀ pid z, inputs.zmxByPid pid = some z → z ∈ inputs.zmxSessions := fun pid z hz =>
    List.mem_reverse.mp (List.mem_of_find?_eq_some hz)
  rw [pidMatch, Option.bind_eq_some_iff] at hz
  obtain ⟨pid, -, hz⟩ := hz
  rcases Option.or_eq_some_iff.mp hz with hself | ⟨-, hancestor⟩
  · exact hfind _ z hself
  · obtain ⟨a, -, ha⟩ := List.exists_of_findSome?_eq_some hancestor
    exact hfind a z ha

theorem nameMatch_eq_some {p : RegistryEntry} {z : MuxSession} (hz : nameMatch inputs p = some z) :
    z ∈ inputs.zmxSessions ∧ p.name = some z.name := by
  rw [nameMatch, Option.bind_eq_some_iff] at hz
  obtain ⟨n, hn, hz⟩ := hz
  unfold JoinInputs.zmxByName at hz
  split at hz
  · have hfound := List.find?_some hz
    have hname : z.name = n := of_decide_eq_true hfound
    refine ⟨List.mem_reverse.mp (List.mem_of_find?_eq_some hz), ?_⟩
    rw [hname]
    exact (Option.filter_eq_some_iff.mp hn).1
  · cases hz

theorem zmxMatch_mem {used : Finset String} {p : RegistryEntry} {z : MuxSession}
    (hz : zmxMatch inputs used p = some z) : z ∈ inputs.zmxSessions := by
  rcases Option.or_eq_some_iff.mp hz with hpid | ⟨-, hname⟩
  · exact pidMatch_mem hpid
  · exact (nameMatch_eq_some (Option.filter_eq_some_iff.mp hname).1).1

theorem liveStep_makes (used : Finset String) (p : RegistryEntry) :
    (Source.live p).Makes inputs (liveStep inputs used p).1 :=
  ⟨zmxMatch inputs used p, fun _ hz => zmxMatch_mem hz, rfl⟩

theorem coldStep_left (unmatched : String → Option MuxSession) (jf : TranscriptMeta) (n : String) :
    (coldStep inputs unmatched jf).2 n =
      if (inputs.stats (some jf.path)).name = some n then none else unmatched n := by
  unfold coldStep
  dsimp only
  cases hname : (inputs.stats (some jf.path)).name with
  | none => rfl
  | some n' =>
      cases hz : unmatched n' with
      | none =>
          simp only [Option.bind_some, hz, Option.some.injEq]
          split
          next hn => rw [← hn, hz]
          next => rfl
      | some z =>
          simp only [Option.bind_some, hz, Option.some.injEq, Function.update_apply, eq_comm]

def Panes (inputs : JoinInputs) (unmatched : String → Option MuxSession) : Prop :=
  ∀ n z, unmatched n = some z → z ∈ inputs.zmxSessions ∧ z.name = n

theorem coldStep_makes {unmatched : String → Option MuxSession} (hpanes : Panes inputs unmatched)
    (jf : TranscriptMeta) :
    (Source.transcript jf).Makes inputs (coldStep inputs unmatched jf).1 ∧
      Panes inputs (coldStep inputs unmatched jf).2 := by
  refine ⟨⟨_, fun pane hpane => ?_, rfl⟩, fun n z hz => ?_⟩
  · obtain ⟨n, -, hn⟩ := Option.bind_eq_some_iff.mp hpane
    exact (hpanes n pane hn).1
  · rw [coldStep_left] at hz
    split at hz
    · cases hz
    · exact hpanes n z hz

theorem used_on_row {used : Finset String} {es : List RegistryEntry} {n : String}
    (hn : n ∈ (emitAll (liveStep inputs) used es).2) :
    n ∈ used ∨ ∃ r ∈ (emitAll (liveStep inputs) used es).1, r.zmxName = some n := by
  induction es generalizing used with
  | nil => exact .inl hn
  | cons e es ih =>
      rcases ih hn with hused | ⟨r, hr, hname⟩
      · cases hz : zmxMatch inputs used e with
        | none =>
            simp only [liveStep, hz] at hused
            exact .inl hused
        | some z =>
            simp only [liveStep, hz, Option.elim_some, Finset.mem_insert] at hused
            rcases hused with rfl | hused
            · refine .inr ⟨_, List.mem_cons_self, ?_⟩
              simp only [liveStep, hz]
              rfl
            · exact .inl hused
      · exact .inr ⟨r, List.mem_cons_of_mem _ hr, hname⟩

theorem left_or_on_row {unmatched : String → Option MuxSession} (hpanes : Panes inputs unmatched)
    {jfs : List TranscriptMeta} {n : String} {z : MuxSession} (hz : unmatched n = some z) :
    (emitAll (coldStep inputs) unmatched jfs).2 n = some z ∨
      ∃ r ∈ (emitAll (coldStep inputs) unmatched jfs).1, r.zmxName = some n := by
  induction jfs generalizing unmatched with
  | nil => exact .inl hz
  | cons jf jfs ih =>
      by_cases htaken : (inputs.stats (some jf.path)).name = some n
      · refine .inr ⟨_, List.mem_cons_self, ?_⟩
        have hname := (hpanes n z hz).2
        simp [coldStep, coldSession, htaken, hz, hname]
      · have hkept : (coldStep inputs unmatched jf).2 n = some z := by
          rw [coldStep_left, if_neg htaken, hz]
        rcases ih (coldStep_makes hpanes jf).2 hkept with hleft | ⟨r, hr, hrow⟩
        · exact .inl hleft
        · exact .inr ⟨r, List.mem_cons_of_mem _ hr, hrow⟩

theorem reduce_last {zs : List MuxSession} {z : MuxSession}
    (hz : OrderedMap.reduce (fun _ z => z) zs = some z) : z ∈ zs :=
  OrderedMap.mem_of_reduce (fun _ _ => .inr rfl) hz

theorem panes_unmatchedZmx (used : Finset String) :
    Panes inputs (unmatchedZmx used inputs.zmxSessions).get := by
  intro n z hz
  rw [unmatchedZmx, OrderedMap.get_collect] at hz
  obtain ⟨hmem, hname⟩ := List.mem_filter.mp (reduce_last hz)
  exact ⟨(List.mem_filter.mp hmem).1, of_decide_eq_true hname⟩

theorem unmatchedZmx_isSome {used : Finset String} {z : MuxSession} (hz : z ∈ inputs.zmxSessions)
    (hfree : z.name ∉ used) : ∃ z', (unmatchedZmx used inputs.zmxSessions).get z.name = some z' := by
  have hmem : z.name ∈ (unmatchedZmx used inputs.zmxSessions).order :=
    (OrderedMap.mem_order_collect _ _).mpr
      ⟨z, List.mem_filter.mpr ⟨hz, decide_eq_true hfree⟩, rfl⟩
  rw [OrderedMap.mem_order] at hmem
  exact Option.isSome_iff_exists.mp hmem

/-! ### The other rows -/

/-- The sources after the live ones, in the order of their claims. -/
def coldSources (inputs : JoinInputs) (opts : JoinOpts) : List Source :=
  ((byMtime inputs.transcripts).filter (·.sessionId ∉ acpTombstoneSids inputs opts)).map .transcript ++
    ((tombstones inputs opts).map .tombstone ++
      (inputs.codexCold.map .codex ++ (inputs.piCold.map .pi ++ inputs.opencodeCold.map .opencode)))

theorem makes_map {α : Type} (source : α → Source) (row : α → Session)
    (hmakes : ∀ x, (source x).Makes inputs (row x)) (xs : List α) :
    List.Forall₂ (Source.Makes inputs) (xs.map source) (xs.map row) := by
  rw [List.forall₂_map_left_iff, List.forall₂_map_right_iff]
  exact List.forall₂_same.mpr fun x _ => hmakes x

theorem seenAfter_map {α : Type} {seen : Finset String} (f : α → Source) (xs : List α) :
    seenAfter Source.id seen (xs.map f) = seenAfter (Source.id ∘ f) seen xs :=
  List.foldl_map

/-- **The rows, by their sources.** -/
theorem joinRows_parts (inputs : JoinInputs) (opts : JoinOpts) : ∃ live cold zmxOnly rest,
    joinRows inputs opts = live ++ cold ++ zmxOnly ++ rest ∧
    List.Forall₂ (fun e r => (Source.live e).Makes inputs r) (dedupe inputs.registry) live ∧
    List.Forall₂ (Source.Makes inputs)
      (keepFirst Source.id (seenAfter entrySid ∅ (dedupe inputs.registry)) (coldSources inputs opts))
      (cold ++ rest) ∧
    (∀ r ∈ zmxOnly, r.sessionId = "" ∧ r.whichBranch = .zmxOnly) ∧
    ∀ z ∈ inputs.zmxSessions, ∃ r ∈ live ++ cold ++ zmxOnly, r.zmxName = some z.name := by
  have hlive : List.Forall₂ (fun e r => (Source.live e).Makes inputs r) (dedupe inputs.registry)
      (emitAll (liveStep inputs) ∅ (dedupe inputs.registry)).1 :=
    (forall₂_emitAll (fun _ => True) (fun used p _ => ⟨liveStep_makes used p, trivial⟩)
      (dedupe inputs.registry) trivial).1
  let used := (emitAll (liveStep inputs) ∅ (dedupe inputs.registry)).2
  let unmatched := unmatchedZmx used inputs.zmxSessions
  let jsonl := keepFirst (·.sessionId) (seenAfter entrySid ∅ (dedupe inputs.registry))
    ((byMtime inputs.transcripts).filter (·.sessionId ∉ acpTombstoneSids inputs opts))
  have hpanes : Panes inputs unmatched.get := panes_unmatchedZmx used
  have hcold : List.Forall₂ (fun jf r => (Source.transcript jf).Makes inputs r) jsonl
      (emitAll (coldStep inputs) unmatched.get jsonl).1 :=
    (forall₂_emitAll (Panes inputs) (fun s jf hs => coldStep_makes hs jf) jsonl hpanes).1
  let seen := seenAfter (·.sessionId) (seenAfter entrySid ∅ (dedupe inputs.registry)) jsonl
  let tombstoned := keepFirst entrySid seen (tombstones inputs opts)
  let seen := seenAfter entrySid seen tombstoned
  let codex := keepFirst (·.id) seen inputs.codexCold
  let seen := seenAfter (·.id) seen codex
  let pi := keepFirst (·.sessionId) seen inputs.piCold
  let opencode := keepFirst (·.id) (seenAfter (·.sessionId) seen pi) inputs.opencodeCold
  refine ⟨_, (emitAll (coldStep inputs) unmatched.get jsonl).1,
    unmatched.order.filterMap fun n =>
      ((emitAll (coldStep inputs) unmatched.get jsonl).2 n).map zmxOnlySession,
    tombstoned.map (tombstonedSession inputs) ++ (codex.map codexSession ++
      (pi.map (piSession inputs) ++ opencode.map opencodeSession)), ?_, hlive, ?_, ?_, ?_⟩
  · simp only [joinRows, List.append_assoc]
    rfl
  · simp only [coldSources, keepFirst_append, keepFirst_map, seenAfter_map]
    have htombstoned : List.Forall₂ (Source.Makes inputs) (tombstoned.map .tombstone)
        (tombstoned.map (tombstonedSession inputs)) :=
      makes_map .tombstone (tombstonedSession inputs) (fun _ => rfl) tombstoned
    have hcodex : List.Forall₂ (Source.Makes inputs) (codex.map .codex) (codex.map codexSession) :=
      makes_map .codex codexSession (fun _ => rfl) codex
    have hpi : List.Forall₂ (Source.Makes inputs) (pi.map .pi) (pi.map (piSession inputs)) :=
      makes_map .pi (piSession inputs) (fun _ => rfl) pi
    have hopencode : List.Forall₂ (Source.Makes inputs) (opencode.map .opencode)
        (opencode.map opencodeSession) :=
      makes_map .opencode opencodeSession (fun _ => rfl) opencode
    refine List.rel_append ?_ (List.rel_append htombstoned (List.rel_append hcodex
      (List.rel_append hpi hopencode)))
    rw [List.forall₂_map_left_iff]
    exact hcold
  · intro r hr
    obtain ⟨n, -, hn⟩ := List.mem_filterMap.mp hr
    obtain ⟨z, -, rfl⟩ := Option.map_eq_some_iff.mp hn
    exact ⟨rfl, rfl⟩
  · intro z hz
    by_cases hused : z.name ∈ used
    · rcases used_on_row hused with hno | ⟨r, hr, hname⟩
      · exact absurd hno (Finset.notMem_empty _)
      · exact ⟨r, List.mem_append_left _ (List.mem_append_left _ hr), hname⟩
    · obtain ⟨z', hz'⟩ := unmatchedZmx_isSome hz hused
      have hcarried : (emitAll (coldStep inputs) unmatched.get jsonl).2 z.name = some z' ∨
          ∃ r ∈ (emitAll (coldStep inputs) unmatched.get jsonl).1, r.zmxName = some z.name :=
        left_or_on_row hpanes hz'
      rcases hcarried with hleft | ⟨r, hr, hname⟩
      · refine ⟨zmxOnlySession z', List.mem_append_right _ (List.mem_filterMap.mpr ⟨z.name, ?_, ?_⟩), ?_⟩
        · rw [unmatched.mem_order, hz']
          rfl
        · rw [hleft]
          rfl
        · exact congrArg some (hpanes _ _ hz').2
      · exact ⟨r, List.mem_append_left _ (List.mem_append_right _ hr), hname⟩

/-! ### The rows of one id -/

theorem MadeOf.congr {source source' : Source} {rows : List Session}
    (hmakes : ∀ r, source.Makes inputs r → source'.Makes inputs r) (h : MadeOf inputs [source] rows) :
    MadeOf inputs [source'] rows := by
  obtain ⟨rows', hperm, hmade⟩ := h
  cases hmade with
  | cons hr hnil =>
      cases hnil
      exact ⟨_, hperm, .cons (hmakes _ hr) .nil⟩

theorem madeOf_refl {sources : List Source} {rows : List Session}
    (h : List.Forall₂ (Source.Makes inputs) sources rows) : MadeOf inputs sources rows :=
  ⟨rows, List.Perm.refl rows, h⟩

theorem mem_seen_dedupe : sid ∈ seenAfter entrySid ∅ (dedupe inputs.registry) ↔
    (dedupe inputs.registry).filter (entrySid · = sid) ≠ [] := by
  rw [mem_seenAfter, or_iff_right (Finset.notMem_empty sid), Ne, List.filter_eq_nil_iff]
  simp only [decide_eq_true_eq, not_forall, not_not, exists_prop]

theorem madeOf_filter_sid (inputs : JoinInputs) (opts : JoinOpts) (hsid : sid ≠ "") :
    MadeOf inputs
      (((dedupe inputs.registry).filter (entrySid · = sid)).map .live ++
        if (dedupe inputs.registry).filter (entrySid · = sid) ≠ [] then []
        else ((coldSources inputs opts).find? (·.id = sid)).toList)
      ((joinRows inputs opts).filter (·.sessionId = sid)) := by
  obtain ⟨live, cold, zmxOnly, rest, hrows, hlive, hcold, hpanes, -⟩ := joinRows_parts inputs opts
  have hlive' : List.Forall₂ (Source.Makes inputs)
      (((dedupe inputs.registry).filter (entrySid · = sid)).map .live)
      (live.filter (·.sessionId = sid)) := by
    rw [List.forall₂_map_left_iff]
    refine filter_forall₂ (fun e r hr => ?_) hlive
    rw [hr.sessionId]
    rfl
  have hcold' : List.Forall₂ (Source.Makes inputs)
      ((keepFirst Source.id (seenAfter entrySid ∅ (dedupe inputs.registry))
        (coldSources inputs opts)).filter (·.id = sid))
      ((cold ++ rest).filter (·.sessionId = sid)) :=
    filter_forall₂ (fun s r hr => by rw [hr.sessionId]) hcold
  have hnopane : zmxOnly.filter (·.sessionId = sid) = [] :=
    List.filter_eq_nil_iff.mpr fun r hr => by
      rw [(hpanes r hr).1, decide_eq_true_eq]
      exact hsid.symm
  rw [filter_keepFirst, List.filter_append] at hcold'
  have hfilter : (joinRows inputs opts).filter (·.sessionId = sid) =
      live.filter (·.sessionId = sid) ++ (cold.filter (·.sessionId = sid) ++
        rest.filter (·.sessionId = sid)) := by
    rw [hrows]
    simp only [List.filter_append, hnopane, List.nil_append, List.append_assoc]
  rw [hfilter]
  refine madeOf_refl (List.rel_append hlive' ?_)
  simpa only [mem_seen_dedupe] using hcold'

theorem Source.Makes.live_branch {e : RegistryEntry} {r : Session} (h : (live e).Makes inputs r) :
    r.whichBranch = .liveRegistry ∧ r.pid = e.pid := by
  obtain ⟨z, -, rfl⟩ := h
  exact ⟨rfl, rfl⟩

theorem branch_of_coldSources {s : Source} {r : Session} (hs : s ∈ coldSources inputs opts)
    (h : s.Makes inputs r) : r.whichBranch ≠ .liveRegistry := by
  cases s with
  | live e => simp [coldSources] at hs
  | transcript jf =>
      obtain ⟨z, -, rfl⟩ := h
      exact SessionBranch.noConfusion
  | tombstone | codex | pi | opencode =>
      cases h
      exact SessionBranch.noConfusion

theorem madeOf_filter_live (inputs : JoinInputs) (opts : JoinOpts) (P : RegistryEntry → Bool)
    (Q : Session → Bool)
    (hPQ : ∀ e r, (Source.live e).Makes inputs r → P e = Q r)
    (hQ : ∀ r, Q r = true → r.whichBranch = .liveRegistry) :
    MadeOf inputs (((dedupe inputs.registry).filter P).map .live) ((joinRows inputs opts).filter Q) := by
  obtain ⟨live, cold, zmxOnly, rest, hrows, hlive, hcold, hpanes, -⟩ := joinRows_parts inputs opts
  have hnocold : (cold ++ rest).filter Q = [] := by
    refine List.filter_eq_nil_iff.mpr fun r hr hQr => ?_
    obtain ⟨s, hs, hmakes⟩ := exists_of_forall₂_right hcold hr
    exact branch_of_coldSources (keepFirst_sublist.subset hs) hmakes (hQ r hQr)
  have hnopane : zmxOnly.filter Q = [] :=
    List.filter_eq_nil_iff.mpr fun r hr hQr => by
      have hbranch := (hpanes r hr).2
      rw [hQ r hQr] at hbranch
      exact SessionBranch.noConfusion hbranch
  rw [List.filter_append, List.append_eq_nil_iff] at hnocold
  have hfilter : (joinRows inputs opts).filter Q = live.filter Q := by
    rw [hrows]
    simp only [List.filter_append, hnopane, hnocold.1, hnocold.2, List.append_nil]
  rw [hfilter]
  refine madeOf_refl ?_
  rw [List.forall₂_map_left_iff]
  exact filter_forall₂ hPQ hlive

/-! ### The merge against the policy -/

theorem find?_filter_transcripts (hfree : sid ∉ acpTombstoneSids inputs opts) :
    ((byMtime inputs.transcripts).filter (·.sessionId ∉ acpTombstoneSids inputs opts)).find?
      (·.sessionId = sid) = newestTranscript inputs sid := by
  rw [List.find?_filter]
  refine congrArg (fun p => List.find? p _) (funext fun jf => ?_)
  by_cases hjf : jf.sessionId = sid
  · simp [hjf, hfree]
  · simp [hjf]

theorem find?_filter_transcripts_acp (htaken : sid ∈ acpTombstoneSids inputs opts) :
    ((byMtime inputs.transcripts).filter (·.sessionId ∉ acpTombstoneSids inputs opts)).find?
      (·.sessionId = sid) = none := by
  refine List.find?_eq_none.mpr fun jf hjf hsame => ?_
  have hother := of_decide_eq_true (List.mem_filter.mp hjf).2
  exact hother (of_decide_eq_true hsame ▸ htaken)

theorem mem_acpTombstoneSids (hsid : sid ≠ "") : sid ∈ acpTombstoneSids inputs opts ↔
    ∃ t ∈ (tombstones inputs opts).filter providerClassIsAcp, entrySid t = sid := by
  rw [acpTombstoneSids, List.mem_filterMap]
  refine exists_congr fun t => and_congr_right fun _ => ?_
  unfold entrySid
  cases t.sessionId with
  | none => exact iff_of_false (by simp) (Ne.symm hsid)
  | some s => simp

theorem newestTranscript_eq_none (h : inputs.transcripts.any (·.sessionId = sid) = false) :
    newestTranscript inputs sid = none := by
  refine List.find?_eq_none.mpr fun jf hjf hsame => ?_
  have hin := (List.mem_insertionSort _).mp hjf
  rw [List.any_eq_false] at h
  exact h jf hin hsame

theorem find?_coldSources : (coldSources inputs opts).find? (·.id = sid) =
    ((((((byMtime inputs.transcripts).filter (·.sessionId ∉ acpTombstoneSids inputs opts)).find?
      (·.sessionId = sid)).map .transcript).or
    (((tombstones inputs opts).find? (entrySid · = sid)).map .tombstone)).or
    ((inputs.codexCold.find? (·.id = sid)).map .codex)).or
    (((inputs.piCold.find? (·.sessionId = sid)).map .pi).or
    ((inputs.opencodeCold.find? (·.id = sid)).map .opencode)) := by
  simp only [coldSources, List.find?_append, List.find?_map, Option.or_assoc]
  rfl

theorem find?_coldSources_of_acp (hsid : sid ≠ "") {t : RegistryEntry}
    (hover : acpOverTranscript inputs opts sid = some t) :
    ∃ t', (tombstones inputs opts).find? (entrySid · = sid) = some t' ∧
      (coldSources inputs opts).find? (·.id = sid) = some (.tombstone t') := by
  have hfound : ((tombstones inputs opts).filter providerClassIsAcp).find? (entrySid · = sid) = some t := by
    unfold acpOverTranscript at hover
    split at hover
    · exact hover
    · cases hover
  have hmem := List.mem_of_find?_eq_some hfound
  have hsame := List.find?_some hfound
  have htsid : entrySid t = sid := of_decide_eq_true hsame
  have htaken : sid ∈ acpTombstoneSids inputs opts := (mem_acpTombstoneSids hsid).mpr ⟨t, hmem, htsid⟩
  rw [find?_coldSources, find?_filter_transcripts_acp htaken]
  cases hfirst : (tombstones inputs opts).find? (entrySid · = sid) with
  | none =>
      have hno := List.find?_eq_none.mp hfirst t (List.mem_of_mem_filter hmem)
      exact absurd (decide_eq_true htsid) hno
  | some t' => exact ⟨t', rfl, rfl⟩

theorem coldWinner_of_acp {t : RegistryEntry} (hover : acpOverTranscript inputs opts sid = some t) :
    coldWinner inputs opts sid = some (.tombstone t) := by
  rw [coldWinner, hover]
  rfl

/-- Elsewhere, what claims an id first is what the policy says. -/
theorem find?_coldSources_of_not_acp (hsid : sid ≠ "")
    (hover : acpOverTranscript inputs opts sid = none) :
    (coldSources inputs opts).find? (·.id = sid) = coldWinner inputs opts sid := by
  have hsame : ((byMtime inputs.transcripts).filter
      (·.sessionId ∉ acpTombstoneSids inputs opts)).find? (·.sessionId = sid) =
      newestTranscript inputs sid := by
    by_cases htaken : sid ∈ acpTombstoneSids inputs opts
    · rw [find?_filter_transcripts_acp htaken]
      unfold acpOverTranscript at hover
      split at hover
      · obtain ⟨t, ht, htsid⟩ := (mem_acpTombstoneSids hsid).mp htaken
        exact absurd (decide_eq_true htsid) (List.find?_eq_none.mp hover t ht)
      next hno => exact (newestTranscript_eq_none (Bool.eq_false_iff.mpr hno)).symm
    · exact find?_filter_transcripts htaken
  rw [find?_coldSources, hsame, coldWinner, hover]
  rfl

theorem winners_of_live {e : RegistryEntry} {es : List RegistryEntry}
    (h : ([true, false].filterMap fun acp => newest (liveWith inputs sid acp)) = e :: es) :
    winners inputs opts sid = (e :: es).map .live := by
  rw [winners, h]

theorem winners_of_not_live
    (h : ([true, false].filterMap fun acp => newest (liveWith inputs sid acp)) = []) :
    winners inputs opts sid = (coldWinner inputs opts sid).toList := by
  rw [winners, h]

theorem newest_liveWith {e : RegistryEntry} (he : e ∈ inputs.registry) (hsid : entrySid e = sid) :
    ([true, false].filterMap fun acp => newest (liveWith inputs sid acp)) ≠ [] := by
  obtain ⟨e', he'⟩ := newest_isSome (mem_liveWith.mpr ⟨he, hsid, rfl⟩)
  refine List.ne_nil_of_mem (List.mem_filterMap.mpr ⟨providerClassIsAcp e, ?_, he'⟩)
  cases providerClassIsAcp e <;> decide

theorem newest_liveWith_nil (h : sid ∉ inputs.registry.map entrySid) :
    ([true, false].filterMap fun acp => newest (liveWith inputs sid acp)) = [] := by
  refine List.filterMap_eq_nil_iff.mpr fun acp _ => ?_
  have hnil : liveWith inputs sid acp = [] := by
    refine List.filter_eq_nil_iff.mpr fun e he hsame => ?_
    exact h (List.mem_map.mpr ⟨e, he, (of_decide_eq_true hsame).1⟩)
  rw [hnil]
  rfl

theorem winners_ne_nil (hoccurs : Occurs inputs opts sid) : winners inputs opts sid ≠ [] := by
  cases hlive : ([true, false].filterMap fun acp => newest (liveWith inputs sid acp)) with
  | cons e es =>
      rw [winners_of_live hlive]
      exact List.cons_ne_nil _ _
  | nil =>
      have hfound : ∀ {α : Type} (xs : List α) (id : α → String), sid ∈ xs.map id →
          xs.find? (id · = sid) ≠ none := by
        intro α xs id hmem hnone
        obtain ⟨x, hx, hid⟩ := List.mem_map.mp hmem
        exact absurd (decide_eq_true hid) (List.find?_eq_none.mp hnone x hx)
      rw [winners_of_not_live hlive]
      intro hno
      rw [Option.toList_eq_nil_iff] at hno
      unfold coldWinner at hno
      simp only [Option.or_eq_none_iff, Option.map_eq_none_iff] at hno
      rcases hoccurs with h | h | h | h | h | h
      · obtain ⟨e, he, hsid⟩ := List.mem_map.mp h
        exact newest_liveWith he hsid hlive
      · refine hfound (byMtime inputs.transcripts) (·.sessionId) ?_ hno.1.1.1.2
        obtain ⟨jf, hjf, hsid⟩ := List.mem_map.mp h
        exact List.mem_map.mpr ⟨jf, (List.mem_insertionSort _).mpr hjf, hsid⟩
      · exact hfound _ _ h hno.1.2
      · exact hfound _ _ h hno.2.1
      · exact hfound _ _ h hno.2.2
      · exact hfound _ _ h hno.1.1.2

theorem madeOf_filter_unidentified (inputs : JoinInputs) (opts : JoinOpts) (pid : Int64) :
    MadeOf inputs
      (((dedupe inputs.registry).filter fun e => entrySid e = "" ∧ e.pid = some pid).map .live)
      ((joinRows inputs opts).filter fun r =>
        r.whichBranch = .liveRegistry ∧ r.sessionId = "" ∧ r.pid = some pid) := by
  refine madeOf_filter_live inputs opts _ _ (fun e r hr => ?_) fun r hr => (of_decide_eq_true hr).1
  refine decide_eq_decide.mpr ?_
  rw [hr.sessionId, hr.live_branch.1, hr.live_branch.2, eq_self, true_and]
  rfl

theorem mergeOk_joinRows (hkeys : KeysApart inputs) (hacp : AcpFirst inputs opts) :
    MergeOk inputs opts (joinRows inputs opts) where
  occurs _ _ hoccurs := winners_ne_nil hoccurs
  ids sid hsid := by
    have hmade := madeOf_filter_sid inputs opts hsid
    have hperm := dedupe_sid_perm hkeys hsid
    cases hlive : ([true, false].filterMap fun acp => newest (liveWith inputs sid acp)) with
    | cons e es =>
        rw [hlive] at hperm
        rw [winners_of_live hlive]
        have hsome : (dedupe inputs.registry).filter (entrySid · = sid) ≠ [] := by
          intro hnil
          rw [hnil] at hperm
          exact absurd hperm.symm.eq_nil (List.cons_ne_nil e es)
        rw [if_pos hsome, List.append_nil] at hmade
        obtain ⟨rows', hsame, hrows⟩ := hmade
        exact (madeOf_of_forall₂ (hperm.map .live).symm hrows).perm hsame
    | nil =>
        rw [hlive] at hperm
        rw [winners_of_not_live hlive]
        rw [hperm.eq_nil, if_neg (not_not.mpr rfl), List.map_nil, List.nil_append] at hmade
        cases hover : acpOverTranscript inputs opts sid with
        | none => rwa [← find?_coldSources_of_not_acp hsid hover]
        | some t =>
          obtain ⟨t', hfirst, hclaims⟩ := find?_coldSources_of_acp hsid hover
          rw [hclaims] at hmade
          rw [coldWinner_of_acp hover]
          refine hmade.congr fun r hr => ?_
          have hnotlive : sid ∉ inputs.registry.map entrySid := by
            intro hmem
            obtain ⟨e, he, hesid⟩ := List.mem_map.mp hmem
            exact newest_liveWith he hesid hlive
          have hshow := hacp sid t t' hsid hnotlive hover hfirst
          exact (show r = tombstonedSession inputs t' from hr).trans hshow
  unidentified pid := by
    obtain ⟨rows', hsame, hrows⟩ := madeOf_filter_unidentified inputs opts pid
    exact (madeOf_of_forall₂ ((dedupe_unidentified_perm hkeys pid).map .live).symm hrows).perm hsame
  panes z hz := by
    obtain ⟨live, cold, zmxOnly, rest, hrows, -, -, -, hpanes⟩ := joinRows_parts inputs opts
    obtain ⟨r, hr, hname⟩ := hpanes z hz
    exact ⟨r, hrows ▸ List.mem_append_left rest hr, hname⟩

theorem length_lt_newest {group : Bool → List RegistryEntry} {kept : List RegistryEntry}
    {acp : Bool} {e : RegistryEntry} (hnodup : kept.Nodup)
    (hother : ∀ x ∈ kept, providerClassIsAcp x = !acp) (hone : ∀ x ∈ kept, ∀ y ∈ kept, x = y)
    (hgroup : ∀ x ∈ kept, x ∈ group (providerClassIsAcp x)) (he : e ∈ group acp) :
    kept.length < ([true, false].filterMap fun acp => newest (group acp)).length := by
  obtain ⟨e', he'⟩ := newest_isSome he
  cases kept with
  | nil =>
      refine List.length_pos_of_mem (a := e') (List.mem_filterMap.mpr ⟨acp, ?_, he'⟩)
      cases acp <;> decide
  | cons x xs =>
      have hxs : xs = [] := by
        refine List.eq_nil_iff_forall_not_mem.mpr fun y hy => (List.nodup_cons.mp hnodup).1 ?_
        exact hone y (List.mem_cons_of_mem x hy) x List.mem_cons_self ▸ hy
      have hx := hgroup x List.mem_cons_self
      rw [hother x List.mem_cons_self] at hx
      obtain ⟨x', hx'⟩ := newest_isSome hx
      cases acp <;> simp_all

theorem dedupe_unique {x y : RegistryEntry} (hx : x ∈ dedupe inputs.registry)
    (hy : y ∈ dedupe inputs.registry) (hkey : dedupeKey x = dedupeKey y) : x = y := by
  have hx' := mem_dedupe.mp hx
  have hy' := mem_dedupe.mp hy
  rw [hkey, hy'] at hx'
  exact Option.some.inj hx'.symm

theorem registry_of_dedupe {x : RegistryEntry} (hx : x ∈ dedupe inputs.registry) :
    x ∈ inputs.registry :=
  (List.mem_filter.mp (mem_of_newest (mem_dedupe.mp hx))).1

theorem dedupe_of_mem {e : RegistryEntry} (he : e ∈ inputs.registry) :
    ∃ w ∈ dedupe inputs.registry, dedupeKey w = dedupeKey e := by
  have hself : e ∈ inputs.registry.filter (dedupeKey · = dedupeKey e) :=
    List.mem_filter.mpr ⟨he, decide_eq_true rfl⟩
  obtain ⟨w, hw⟩ := newest_isSome hself
  have hkey : dedupeKey w = dedupeKey e := OrderedMap.key_of_reduce newer_eq hw
  exact ⟨w, mem_dedupe.mpr (hkey ▸ hw), hkey⟩

theorem length_filter_dedupe_lt {P : RegistryEntry → Bool} {group : Bool → List RegistryEntry}
    {k : String} {acp : Bool} {e w : RegistryEntry}
    (hkept : ∀ x, P x = true → dedupeId x = k)
    (hgroup : ∀ x ∈ inputs.registry, P x = true → x ∈ group (providerClassIsAcp x))
    (hw : w ∈ dedupe inputs.registry) (hkey : dedupeKey w = (k, acp)) (hwP : P w = false)
    (he : e ∈ group acp) : ((dedupe inputs.registry).filter P).length <
      ([true, false].filterMap fun acp => newest (group acp)).length := by
  have hmem : ∀ x ∈ (dedupe inputs.registry).filter P, x ∈ dedupe inputs.registry ∧ P x = true :=
    fun x hx => List.mem_filter.mp hx
  have hother : ∀ x ∈ (dedupe inputs.registry).filter P, providerClassIsAcp x = !acp := by
    intro x hx
    obtain ⟨hx, hPx⟩ := hmem x hx
    refine Bool.eq_not_iff.mpr fun hclass => ?_
    have hsame : dedupeKey x = dedupeKey w := by
      rw [hkey, dedupeKey, hkept x hPx, hclass]
    rw [dedupe_unique hx hw hsame, hwP] at hPx
    cases hPx
  refine length_lt_newest ((nodup_dedupe _).filter P) hother (fun x hx y hy => ?_)
    (fun x hx => hgroup x (registry_of_dedupe (hmem x hx).1) (hmem x hx).2) he
  refine dedupe_unique (hmem x hx).1 (hmem y hy).1 ?_
  rw [dedupeKey, dedupeKey, hkept x (hmem x hx).2, hkept y (hmem y hy).2, hother x hx, hother y hy]

theorem keysApart_of_mergeOk (hok : MergeOk inputs opts (joinRows inputs opts)) : KeysApart inputs := by
  intro e he e' he' pid hnone hpid hclass hsid
  have hsid' : entrySid e ≠ "" := hsid ▸ unidentifiedKey_ne pid
  -- one entry is kept of the key that both have
  have hkeys : dedupeKey e' = dedupeKey e := by
    rw [dedupeKey, dedupeKey, hclass, dedupeId_of_sid hsid', dedupeId_of_no_sid hnone, hpid, hsid]
    rfl
  obtain ⟨w, hw, hkey⟩ := dedupe_of_mem he
  have hkey' : dedupeKey w = (entrySid e, providerClassIsAcp e) := by
    rw [hkey, dedupeKey, dedupeId_of_sid hsid']
  by_cases hwsid : entrySid w = entrySid e
  · -- the pid is lost
    have hlt : ((dedupe inputs.registry).filter
        fun x => decide (entrySid x = "" ∧ x.pid = some pid)).length <
        ([true, false].filterMap fun acp => newest (unidentified inputs pid acp)).length := by
      refine length_filter_dedupe_lt (fun x hx => ?_) (fun x hin hx => ?_) hw hkey'
        (decide_eq_false fun h => hsid' (hwsid ▸ h.1))
        (mem_unidentified.mpr ⟨he', hnone, hpid, hclass.symm⟩)
      · obtain ⟨hx, hxpid⟩ := of_decide_eq_true hx
        rw [dedupeId_of_no_sid hx, hxpid, hsid]
        rfl
      · obtain ⟨hx, hxpid⟩ := of_decide_eq_true hx
        exact mem_unidentified.mpr ⟨hin, hx, hxpid, rfl⟩
    have hlost := (madeOf_filter_unidentified inputs opts pid).length_eq
    rw [← (hok.unidentified pid).length_eq, List.length_map, List.length_map] at hlost
    omega
  · -- the id is lost
    have hlt : ((dedupe inputs.registry).filter fun x => decide (entrySid x = entrySid e)).length <
        ([true, false].filterMap fun acp => newest (liveWith inputs (entrySid e) acp)).length := by
      refine length_filter_dedupe_lt (fun x hx => ?_)
        (fun x hin hx => mem_liveWith.mpr ⟨hin, of_decide_eq_true hx, rfl⟩) hw hkey'
        (decide_eq_false hwsid) (mem_liveWith.mpr ⟨he, rfl, rfl⟩)
      have hx := of_decide_eq_true hx
      rw [dedupeId_of_sid (hx ▸ hsid'), hx]
    cases hlive : ([true, false].filterMap fun acp => newest (liveWith inputs (entrySid e) acp)) with
    | nil => exact newest_liveWith he rfl hlive
    | cons x xs =>
        have hids := hok.ids (entrySid e) hsid'
        rw [winners_of_live hlive] at hids
        have hbranch : ∀ r ∈ (joinRows inputs opts).filter (·.sessionId = entrySid e),
            r.whichBranch = .liveRegistry := by
          intro r hr
          obtain ⟨rows', hsame, hrows⟩ := hids
          obtain ⟨source, hsource, hmakes⟩ := exists_of_forall₂_right hrows (hsame.symm.subset hr)
          obtain ⟨y, -, rfl⟩ := List.mem_map.mp hsource
          exact hmakes.live_branch.1
        have hmade := madeOf_filter_live inputs opts (fun y => decide (entrySid y = entrySid e))
          (fun r => decide (r.whichBranch = .liveRegistry ∧ r.sessionId = entrySid e))
          (fun y r hr => decide_eq_decide.mpr (by
            rw [hr.sessionId, hr.live_branch.1, eq_self, true_and]
            rfl))
          (fun r hr => (of_decide_eq_true hr).1)
        have hrows : (joinRows inputs opts).filter
            (fun r => decide (r.whichBranch = .liveRegistry ∧ r.sessionId = entrySid e)) =
            (joinRows inputs opts).filter (·.sessionId = entrySid e) := by
          refine List.filter_congr fun r hr => decide_eq_decide.mpr ⟨fun h => h.2, fun h => ⟨?_, h⟩⟩
          exact hbranch r (List.mem_filter.mpr ⟨hr, decide_eq_true h⟩)
        have hlost := hmade.length_eq
        rw [hrows, ← hids.length_eq, List.length_map, List.length_map, ← hlive] at hlost
        omega

theorem acpFirst_of_mergeOk (hok : MergeOk inputs opts (joinRows inputs opts)) :
    AcpFirst inputs opts := by
  intro sid t t' hsid hnotlive hover hfirst
  have hnil := newest_liveWith_nil hnotlive
  have hids := hok.ids sid hsid
  have hmade := madeOf_filter_sid inputs opts hsid
  have hnone : (dedupe inputs.registry).filter (entrySid · = sid) = [] := by
    refine List.filter_eq_nil_iff.mpr fun e he hsame => hnotlive ?_
    exact List.mem_map.mpr ⟨e, registry_of_dedupe he, of_decide_eq_true hsame⟩
  rw [hnone, if_neg (not_not.mpr rfl), List.map_nil, List.nil_append] at hmade
  rw [winners_of_not_live hnil] at hids
  obtain ⟨u, hu, hclaims⟩ := find?_coldSources_of_acp hsid hover
  rw [hfirst] at hu
  cases hu
  rw [hclaims] at hmade
  rw [coldWinner_of_acp hover] at hids
  -- the one row of the id is made of both tombstones
  obtain ⟨rows, hrows, hmakes⟩ := hmade
  obtain ⟨rows', hrows', hmakes'⟩ := hids
  have hfirstRow : rows = [tombstonedSession inputs t'] := by
    cases hmakes with
    | cons hr hnil =>
        cases hnil
        cases hr
        rfl
  have hacpRow : rows' = [tombstonedSession inputs t] := by
    cases hmakes' with
    | cons hr hnil =>
        cases hnil
        cases hr
        rfl
  have hsame := hrows.trans hrows'.symm
  rw [hfirstRow, hacpRow, List.singleton_perm_singleton] at hsame
  exact hsame

/-! ### The list -/

theorem sortSessions_perm (sessions : List Session) : (sortSessions sessions).Perm sessions :=
  List.perm_insertionSort _ sessions

theorem joinSessionsCounted_uncapped (hcap : opts.cap = none) :
    joinSessionsCounted inputs opts = (sortSessions (joinRows inputs opts), 0) := by
  have hall : opts.includeAll = true := by
    unfold JoinOpts.cap at hcap
    split at hcap
    · cases hcap
    · by_contra hno
      rw [if_neg hno] at hcap
      cases hcap
  have hlisted : listed opts = fun _ => true := by
    funext s
    rw [listed, hall, Bool.true_or]
  rw [joinSessionsCounted, applyListCapCounted, hcap, hlisted, List.filter_true]
  rfl

/-- **The merge loses and duplicates nothing exactly if the keys of entries with and without an id
are apart, and the first tombstone is shown where an ACP one is to be.** -/
theorem joinSessionsCounted_mergeOk_iff (hcap : opts.cap = none) :
    MergeOk inputs opts (joinSessionsCounted inputs opts).1 ↔
      KeysApart inputs ∧ AcpFirst inputs opts := by
  rw [joinSessionsCounted_uncapped hcap]
  have hperm := sortSessions_perm (joinRows inputs opts)
  constructor
  · intro hok
    exact ⟨keysApart_of_mergeOk (hok.perm hperm), acpFirst_of_mergeOk (hok.perm hperm)⟩
  · rintro ⟨hkeys, hacp⟩
    exact (mergeOk_joinRows hkeys hacp).perm hperm.symm

/-- The tombstone of a companion, and of the ACP row with the same id. -/
def companion : RegistryEntry where
  pid := some 11
  sessionId := some "s"
  name := some "companion"

def friend : RegistryEntry where
  pid := some 12
  sessionId := some "s"
  name := some "friend"
  provider := some "claude-code"
  hosting := some "acp"

def companionInputs : JoinInputs where
  tombstoned := [companion, friend]
  transcripts := [{ sessionId := "s", path := "s.jsonl", mtimeMs := 1, projectDir := "p" }]

theorem joinSessionsCounted_mergeOk_companion :
    ({ includeAll := true, includeTombstoned := true } : JoinOpts).cap = none ∧
      (MergeOk companionInputs { includeAll := true, includeTombstoned := true }
          (joinSessionsCounted companionInputs { includeAll := true, includeTombstoned := true }).1 ↔
        KeysApart companionInputs ∧
          AcpFirst companionInputs { includeAll := true, includeTombstoned := true }) :=
  ⟨rfl, joinSessionsCounted_mergeOk_iff rfl⟩

/-- The companion is shown, and the ACP row is lost. -/
theorem companionInputs_not_mergeOk :
    ¬MergeOk companionInputs { includeAll := true, includeTombstoned := true }
      (joinSessionsCounted companionInputs { includeAll := true, includeTombstoned := true }).1 := by
  intro hok
  rw [joinSessionsCounted_uncapped rfl] at hok
  have hacp := acpFirst_of_mergeOk (hok.perm (sortSessions_perm _))
  have hsame := hacp "s" friend companion (by decide) (by decide) (by decide)
    (by decide)
  exact absurd (congrArg Session.pid hsame) (by decide)

end QuorumDispatch.Sessions
