import Mathlib.Data.List.Count
import Mathlib.Data.List.Nodup
import QuorumDispatch.Lib.Fibers
import QuorumDispatch.Pty.Contract

/-!
Any number of sends into one session, side by side, over its transcript and its delivery log.
The session records a submitted message at most once, when it likes, and may write other lines.
-/

namespace QuorumDispatch.Pty

open Lib DeliveryEvents
open Lib.Dialog (asked_snoc)

/-- A session. A line of the transcript is a user record with its text, or something else. -/
structure Session where
  transcript : List (Option (List Char)) := []
  /-- The sends whose message has been recorded. -/
  recorded : List Nat := []
  /-- The records of the delivery log, with the send that wrote each. -/
  log : List (Nat × Payload) := []

/-- `read_user_texts_past_offset`: the user texts behind the offset. -/
def userTexts (lines : List (Option (List Char))) (offset : Nat) : List (List Char) :=
  (lines.drop offset).filterMap id

def Typed (h : History) : Prop := ∃ e ∈ h, ∃ text, e.question = .muxSend text

variable (sha256Hex : Bytes → String)

abbrev Sends := Pool Session (sendMuxPty sha256Hex)

/-- The pane, the clock and the composer answer anything. A read may fail, and so may an append
to the log. -/
def rules : PoolRules Session (sendMuxPty sha256Hex) where
  answers s i e s' :=
    match e with
    | ⟨.fileLen, len⟩ => s' = s ∧ (len = none ∨ len = some s.transcript.length)
    | ⟨.poll offset, read⟩ | ⟨.reread offset, read⟩ =>
        s' = s ∧ ∀ texts, read = .ok texts → texts = userTexts s.transcript offset
    | ⟨.emit payload, _⟩ => s' = s ∨ s' = { s with log := s.log ++ [(i, payload)] }
    | _ => s' = s
  moves p s' :=
    (∃ line, s' = { p.shared with transcript := p.shared.transcript ++ [line] }) ∨
      ∃ i f, p.fibers[i]? = some f ∧ Typed f.asked ∧ i ∉ p.shared.recorded ∧
        s' = { p.shared with
          transcript := p.shared.transcript ++ [some f.key.message]
          recorded := i :: p.shared.recorded }

variable {sha256Hex}

def offsetOf (p : Sends sha256Hex) (i : Nat) : Option Nat :=
  p.fibers[i]?.bind fun f => snapshot? f.asked

def sends (p : Sends sha256Hex) (m : List Char) (i : Nat) : Bool :=
  p.fibers[i]?.any fun f => f.key.message == m

def seenBy (p : Sends sha256Hex) (m : List Char) : List Nat :=
  (p.shared.log.filter fun entry => isSeen entry.2 && sends p m entry.1).map (·.1)

def earliest (p : Sends sha256Hex) (m : List Char) : Nat :=
  ((seenBy p m).filterMap (offsetOf p)).min?.getD p.shared.transcript.length

/-- No text is recorded as seen more often than it was written behind the earliest snapshot. -/
def OneRecordEach (p : Sends sha256Hex) : Prop :=
  ∀ m, (seenBy p m).length ≤ (p.shared.transcript.drop (earliest p m)).count (some m)

def OwnRecord (p : Sends sha256Hex) : PoolAct PtyParams Query Answer → Prop
  | .answer i ⟨.poll _, .ok texts⟩ =>
      ∀ f, p.fibers[i]? = some f → proves f.key texts = true → i ∈ p.shared.recorded
  | _ => True

/-! ### What a step changes -/

section Steps

variable {p p' : Sends sha256Hex} {a : PoolAct PtyParams Query Answer}

inductive Change (p : Sends sha256Hex) (a : PoolAct PtyParams Query Answer) (p' : Sends sha256Hex) :
    Prop where
  | same (hs : p'.shared = p.shared)
  | line (line : Option (List Char))
      (hs : p'.shared = { p.shared with transcript := p.shared.transcript ++ [line] })
  | record (i : Nat) (f : Fiber (sendMuxPty sha256Hex)) (hf : p.fibers[i]? = some f)
      (htyped : Typed f.asked) (hnew : i ∉ p.shared.recorded)
      (hs : p'.shared = { p.shared with
        transcript := p.shared.transcript ++ [some f.key.message]
        recorded := i :: p.shared.recorded })
  | logged (i : Nat) (payload : Payload) (f : Fiber (sendMuxPty sha256Hex))
      (next : Unit → SendM (Except MuxPtyError Unit)) (hf : p.fibers[i]? = some f)
      (hq : f.rest = .ask (.emit payload) next) (ha : a = .answer i ⟨.emit payload, ()⟩)
      (hs : p'.shared = { p.shared with log := p.shared.log ++ [(i, payload)] })

theorem change_of_step (h : Pool.Step (rules sha256Hex) p a p') : Change p a p' := by
  cases h with
  | start key => exact .same rfl
  | move hs =>
      rcases hs with ⟨line, hs⟩ | ⟨i, f, hf, htyped, hnew, hs⟩
      · exact .line line hs
      · exact .record i f hf htyped hnew hs
  | @answer s i f q next b hf hq hs =>
      cases q with
      | fileLen => exact .same hs.1
      | poll offset => exact .same hs.1
      | reread offset => exact .same hs.1
      | emit payload =>
          rcases hs with hs | hs
          · exact .same hs
          · exact .logged i payload f next hf hq rfl hs
      | _ => exact .same hs

theorem Change.recorded (h : Change p a p') : p.shared.recorded ⊆ p'.shared.recorded := by
  intro i hi
  cases h with
  | record _ _ _ _ _ hs => rw [hs]; exact List.mem_cons_of_mem _ hi
  | _ => simp_all

theorem Change.transcript (h : Change p a p') : p.shared.transcript <+: p'.shared.transcript := by
  cases h with
  | same hs => rw [hs]
  | line l hs => rw [hs]; exact List.prefix_append ..
  | record _ _ _ _ _ hs => rw [hs]; exact List.prefix_append ..
  | logged _ _ _ _ _ _ _ hs => rw [hs]

theorem sends_of_step (h : Pool.Step (rules sha256Hex) p a p') {i : Nat}
    {f : Fiber (sendMuxPty sha256Hex)} (hf : p.fibers[i]? = some f) (m : List Char) :
    sends p' m i = sends p m i := by
  obtain ⟨f', hf', hkey, -⟩ := h.keeps hf
  simp [sends, hf, hf', hkey]

theorem offsetOf_of_step (h : Pool.Step (rules sha256Hex) p a p') {i offset : Nat}
    (ho : offsetOf p i = some offset) : offsetOf p' i = some offset := by
  obtain ⟨f, hf, hsnap⟩ := Option.bind_eq_some_iff.mp ho
  obtain ⟨f', hf', -, es, hes⟩ := h.keeps hf
  rw [offsetOf, hf', Option.bind_some, ← hes]
  exact snapshot?_append hsnap es

theorem snapshot?_of_ne_nil {f : Fiber (sendMuxPty sha256Hex)} (h : f.asked ≠ []) :
    ∃ offset, snapshot? f.asked = some offset := by
  obtain ⟨key, asked, rest, leads⟩ := f
  cases leads with
  | here => exact absurd rfl h
  | ask len rest => exact ⟨_, rfl⟩

end Steps

/-! ### The invariant -/

/-- The recorded sends of a text that took their snapshot at a point or behind it. -/
def recordedBehind (p : Sends sha256Hex) (m : List Char) (k : Nat) : List Nat :=
  p.shared.recorded.filter fun i => sends p m i && (offsetOf p i).any (k ≤ ·)

structure Inv (p : Sends sha256Hex) : Prop where
  snapshots : ∀ i offset, offsetOf p i = some offset → offset ≤ p.shared.transcript.length
  recorded : ∀ i ∈ p.shared.recorded, ∃ f, p.fibers[i]? = some f ∧ Typed f.asked
  /-- Every recorded message is a line behind its snapshot. -/
  counts : ∀ m k, (recordedBehind p m k).length ≤ (p.shared.transcript.drop k).count (some m)
  proven : ∀ i f, p.fibers[i]? = some f → Proven f.key f.asked → i ∈ p.shared.recorded
  seen : ∀ i payload, (i, payload) ∈ p.shared.log → isSeen payload = true →
    ∃ f, p.fibers[i]? = some f ∧ ¬ Unseen f.asked
  once : ((p.shared.log.filter (isSeen ·.2)).map (·.1)).Nodup

section Invariant

variable {p p' : Sends sha256Hex} {a : PoolAct PtyParams Query Answer}

theorem Typed.append {h h' : History} (ht : Typed h) (hpre : h <+: h') : Typed h' := by
  obtain ⟨e, he, htext⟩ := ht
  exact ⟨e, hpre.subset he, htext⟩

theorem not_unseen_append {h h' : History} (hseen : ¬ Unseen h) (hpre : h <+: h') : ¬ Unseen h' :=
  fun hunseen => hseen fun e he => hunseen e (hpre.subset he)

theorem offsetOf_of_typed {i : Nat} {f : Fiber (sendMuxPty sha256Hex)}
    (hf : p.fibers[i]? = some f) (ht : Typed f.asked) : ∃ offset, offsetOf p i = some offset := by
  obtain ⟨e, he, -⟩ := ht
  obtain ⟨offset, hsnap⟩ := snapshot?_of_ne_nil (List.ne_nil_of_mem he)
  exact ⟨offset, by rw [offsetOf, hf]; exact hsnap⟩

theorem inv_init : Inv (⟨{}, []⟩ : Sends sha256Hex) where
  snapshots i offset h := by simp [offsetOf] at h
  recorded i hi := by cases hi
  counts m k := Nat.zero_le _
  proven i f hf := by simp at hf
  seen i payload h := by cases h
  once := List.nodup_nil

theorem Inv.snapshots_step (h : Inv p) (hstep : Pool.Step (rules sha256Hex) p a p') {i offset : Nat}
    (ho : offsetOf p' i = some offset) : offset ≤ p'.shared.transcript.length := by
  have hlength := (change_of_step hstep).transcript.length_le
  obtain ⟨f', hf', hsnap⟩ := Option.bind_eq_some_iff.mp ho
  rcases hstep.fiber hf' with hf | ⟨f, q, b, hf, rfl, -, hasked⟩ | hnil
  · exact Nat.le_trans (h.snapshots i offset (by rw [offsetOf, hf]; exact hsnap)) hlength
  · rw [hasked] at hsnap
    cases hold : f.asked with
    | cons e es =>
        -- the snapshot was taken before
        obtain ⟨o, hsnap'⟩ := snapshot?_of_ne_nil (f := f) (by rw [hold]; exact List.cons_ne_nil _ _)
        have heq := snapshot?_append hsnap' [⟨q, b⟩]
        rw [hsnap] at heq
        cases heq
        exact Nat.le_trans (h.snapshots i _ (by rw [offsetOf, hf]; exact hsnap')) hlength
    | nil =>
        rw [hold] at hsnap
        cases q with
        | fileLen =>
            cases hstep with
            | answer _ _ _ hs =>
                obtain ⟨-, rfl | rfl⟩ := hs
                · cases hsnap
                  exact Nat.zero_le _
                · cases hsnap
                  exact hlength
        | _ => cases hsnap
  · rw [hnil] at hsnap
    cases hsnap

theorem Inv.recorded_step (h : Inv p) (hstep : Pool.Step (rules sha256Hex) p a p') {i : Nat}
    (hi : i ∈ p'.shared.recorded) : ∃ f, p'.fibers[i]? = some f ∧ Typed f.asked := by
  have hold : ∃ f, p.fibers[i]? = some f ∧ Typed f.asked := by
    cases change_of_step hstep with
    | record j f hf htyped hnew hs =>
        rw [hs] at hi
        rcases List.mem_cons.mp hi with rfl | hi
        · exact ⟨f, hf, htyped⟩
        · exact h.recorded i hi
    | same hs => rw [hs] at hi; exact h.recorded i hi
    | line l hs => rw [hs] at hi; exact h.recorded i hi
    | logged _ _ _ _ _ _ _ hs => rw [hs] at hi; exact h.recorded i hi
  obtain ⟨f, hf, htyped⟩ := hold
  obtain ⟨f', hf', -, hpre⟩ := hstep.keeps hf
  exact ⟨f', hf', htyped.append hpre⟩

theorem Inv.filter_step (h : Inv p) (hstep : Pool.Step (rules sha256Hex) p a p') (m : List Char)
    (k : Nat) : (p.shared.recorded.filter fun i => sends p' m i && (offsetOf p' i).any (k ≤ ·)) =
      recordedBehind p m k := by
  refine List.filter_congr fun i hi => ?_
  obtain ⟨f, hf, htyped⟩ := h.recorded i hi
  obtain ⟨offset, ho⟩ := offsetOf_of_typed hf htyped
  rw [sends_of_step hstep hf, offsetOf_of_step hstep ho, ho]

theorem count_le_of_append {t t' : List (Option (List Char))} (hpre : t <+: t') (m : List Char)
    (k : Nat) : (t.drop k).count (some m) ≤ (t'.drop k).count (some m) :=
  (hpre.drop k).sublist.count_le _

theorem Inv.counts_step (h : Inv p) (hstep : Pool.Step (rules sha256Hex) p a p') (m : List Char)
    (k : Nat) : (recordedBehind p' m k).length ≤ (p'.shared.transcript.drop k).count (some m) := by
  have hfilter := h.filter_step hstep m k
  have hcounts := h.counts m k
  have hmono := count_le_of_append (change_of_step hstep).transcript m k
  cases change_of_step hstep with
  | record i f hf htyped hnew hs =>
      obtain ⟨offset, ho⟩ := offsetOf_of_typed hf htyped
      have hoffset := h.snapshots i offset ho
      rw [recordedBehind, hs]
      simp only [List.filter_cons, hfilter]
      split
      case isTrue hsent =>
          -- the new line has the text, and is behind the snapshot
          rw [sends_of_step hstep hf, offsetOf_of_step hstep ho] at hsent
          simp only [sends, hf, Option.any_some, Bool.and_eq_true, beq_iff_eq,
            decide_eq_true_eq] at hsent
          obtain ⟨rfl, hle⟩ := hsent
          rw [List.drop_append_of_le_length (Nat.le_trans hle hoffset), List.count_append]
          simpa using hcounts
      case isFalse =>
          rw [hs] at hmono
          exact Nat.le_trans hcounts hmono
  | same hs =>
      rw [recordedBehind, hs, hfilter]
      exact hcounts
  | line l hs =>
      rw [recordedBehind, hs]
      rw [hs] at hmono
      simp only [hfilter]
      exact Nat.le_trans hcounts hmono
  | logged _ _ _ _ _ _ _ hs =>
      rw [recordedBehind, hs]
      simp only [hfilter]
      exact hcounts

theorem Inv.proven_step (h : Inv p) (hstep : Pool.Step (rules sha256Hex) p a p')
    (hown : OwnRecord p a) {i : Nat} {f' : Fiber (sendMuxPty sha256Hex)}
    (hf' : p'.fibers[i]? = some f') (hproven : Proven f'.key f'.asked) :
    i ∈ p'.shared.recorded := by
  apply (change_of_step hstep).recorded
  rcases hstep.fiber hf' with hf | ⟨f, q, b, hf, rfl, hkey, hasked⟩ | hnil
  · exact h.proven i f' hf hproven
  · rw [hkey, hasked] at hproven
    obtain ⟨offset, texts, hmem, htexts⟩ := hproven
    rcases List.mem_append.mp hmem with hmem | hmem
    · exact h.proven i f hf ⟨offset, texts, hmem, htexts⟩
    · cases List.mem_singleton.mp hmem
      exact hown f hf htexts
  · rw [hnil] at hproven
    obtain ⟨_, _, hmem, _⟩ := hproven
    cases hmem

theorem Inv.seen_step (h : Inv p) (hstep : Pool.Step (rules sha256Hex) p a p') {i : Nat}
    {payload : Payload} (hmem : (i, payload) ∈ p'.shared.log) (hseen : isSeen payload = true) :
    ∃ f, p'.fibers[i]? = some f ∧ ¬ Unseen f.asked := by
  have hold (hmem : (i, payload) ∈ p.shared.log) :
      ∃ f, p'.fibers[i]? = some f ∧ ¬ Unseen f.asked := by
    obtain ⟨f, hf, hnot⟩ := h.seen i payload hmem hseen
    obtain ⟨f', hf', -, hpre⟩ := hstep.keeps hf
    exact ⟨f', hf', not_unseen_append hnot hpre⟩
  cases change_of_step hstep with
  | logged j pl f next hf hq ha hs =>
      rw [hs] at hmem
      rcases List.mem_append.mp hmem with hmem | hmem
      · exact hold hmem
      · cases List.mem_singleton.mp hmem
        subst ha
        obtain ⟨_, f', _, _, _, hf', _, hasked⟩ := hstep.answered
        refine ⟨f', hf', fun hunseen => ?_⟩
        have hfalse := hunseen ⟨.emit payload, ()⟩ (by rw [hasked]; exact asked_snoc)
        rw [show Query.seen (.emit payload) = isSeen payload from rfl, hseen] at hfalse
        cases hfalse
  | same hs => rw [hs] at hmem; exact hold hmem
  | line l hs => rw [hs] at hmem; exact hold hmem
  | record _ _ _ _ _ hs => rw [hs] at hmem; exact hold hmem

theorem fiber_permitted (f : Fiber (sendMuxPty sha256Hex)) {q : Query}
    {next : Answer q → SendM (Except MuxPtyError Unit)} (hq : f.rest = .ask q next) :
    Permitted f.key f.asked q :=
  f.allowed_next (sendMuxPty_ensures f.key) hq

theorem Inv.once_step (h : Inv p) (hstep : Pool.Step (rules sha256Hex) p a p') :
    ((p'.shared.log.filter (isSeen ·.2)).map (·.1)).Nodup := by
  cases change_of_step hstep with
  | logged i payload f next hf hq ha hs =>
      rw [hs]
      simp only [List.filter_append, List.map_append]
      cases hseen : isSeen payload with
      | false => simpa [hseen] using h.once
      | true =>
          have hunseen := (fiber_permitted f hq hseen).2
          have hone : [(i, payload)].filter (isSeen ·.2) = [(i, payload)] := by simp [hseen]
          rw [hone, List.map_singleton, List.nodup_append', List.disjoint_singleton]
          refine ⟨h.once, List.nodup_singleton i, fun hmem => ?_⟩
          -- the send has recorded nothing as seen, so no such record is its
          obtain ⟨⟨j, pl⟩, hentry, rfl⟩ := List.mem_map.mp hmem
          obtain ⟨hlog, hpl⟩ := List.mem_filter.mp hentry
          obtain ⟨f', hf', hnot⟩ := h.seen j pl hlog hpl
          rw [hf] at hf'
          cases hf'
          exact hnot hunseen
  | same hs => rw [hs]; exact h.once
  | line l hs => rw [hs]; exact h.once
  | record _ _ _ _ _ hs => rw [hs]; exact h.once

theorem Inv.step (h : Inv p) (hstep : Pool.Step (rules sha256Hex) p a p') (hown : OwnRecord p a) :
    Inv p' where
  snapshots _ _ := h.snapshots_step hstep
  recorded _ := h.recorded_step hstep
  counts := h.counts_step hstep
  proven _ _ := h.proven_step hstep hown
  seen _ _ := h.seen_step hstep
  once := h.once_step hstep

theorem Inv.recorded_of_seen (h : Inv p) {i : Nat} {f : Fiber (sendMuxPty sha256Hex)}
    (hf : p.fibers[i]? = some f) (hseen : ¬ Unseen f.asked) : i ∈ p.shared.recorded := by
  simp only [Unseen, not_forall, Bool.not_eq_false] at hseen
  obtain ⟨e, he, hseen⟩ := hseen
  obtain ⟨xs, ys, hasked⟩ := List.append_of_mem he
  have hpermitted := f.allowed_asked (sendMuxPty_ensures f.key) hasked
  refine h.proven i f hf ?_
  rw [hasked]
  refine Proven.append (h := xs) ?_ (List.prefix_append ..)
  rcases e with ⟨q, b⟩
  cases q with
  | emit payload => exact (hpermitted hseen).1
  | _ => cases hseen

theorem Inv.oneRecordEach (h : Inv p) : OneRecordEach p := by
  intro m
  have hnodup : (seenBy p m).Nodup := by
    have hsub : (seenBy p m).Sublist ((p.shared.log.filter (isSeen ·.2)).map (·.1)) := by
      refine List.Sublist.map _ (List.monotone_filter_right _ fun entry hentry => ?_)
      simp only [Bool.and_eq_true] at hentry
      exact hentry.1
    exact h.once.sublist hsub
  have hsubset : seenBy p m ⊆ recordedBehind p m (earliest p m) := by
    intro i hi
    obtain ⟨⟨j, payload⟩, hentry, rfl⟩ := List.mem_map.mp hi
    obtain ⟨hlog, hboth⟩ := List.mem_filter.mp hentry
    simp only [Bool.and_eq_true] at hboth
    obtain ⟨f, hf, hnot⟩ := h.seen j payload hlog hboth.1
    have hrecorded := h.recorded_of_seen hf hnot
    obtain ⟨f', hf', htyped⟩ := h.recorded j hrecorded
    obtain ⟨offset, ho⟩ := offsetOf_of_typed hf' htyped
    refine List.mem_filter.mpr ⟨hrecorded, ?_⟩
    have hle : earliest p m ≤ offset :=
      List.min?_getD_le_of_mem (List.mem_filterMap.mpr ⟨j, hi, ho⟩)
    simp [hboth.2, ho, hle]
  exact Nat.le_trans (List.subperm_of_subset hnodup hsubset).length_le (h.counts m _)

/-- **One record proves one send**, in every run in which every send is proved by a poll behind
its own record. -/
theorem oneRecordEach_of_ownRecord {p : Sends sha256Hex}
    (h : Pool.Reachable (rules sha256Hex) OwnRecord {} p) : OneRecordEach p := by
  have hinv : Inv p := h.invariant inv_init fun _ _ _ hinv hstep hown => hinv.step hstep hown
  exact hinv.oneRecordEach

end Invariant

/-! ### Two sends of one text -/

/-- A send of `ok` into an idle session. -/
def okSend (id : String) : PtyParams :=
  { sendId := id, message := "ok".toList, action := .sendVerify }

/-- What it asks up to its first poll, in an empty transcript. -/
def okTyped (sha256Hex : Bytes → String) (id : String) : History :=
  [⟨.fileLen, some 0⟩, ⟨.emit (initiated sha256Hex (okSend id) 0), ()⟩,
    ⟨.muxSend "ok".toList, true⟩, ⟨.sleep twoWriteSettleMs, ()⟩, ⟨.muxSend ['\r'], true⟩,
    ⟨.emit (chunksDelivered (okSend id) { total := 1, acked := 1 }), ()⟩, ⟨.nowMs, (0 : Int)⟩]

def okSeen (sha256Hex : Bytes → String) (id : String) : History :=
  [⟨.poll 0, .ok ["ok".toList]⟩, ⟨.emit (messageSeen sha256Hex (okSend id)), ()⟩]

theorem okSend_leads (sha256Hex : Bytes → String) (id : String) :
    (sendMuxPty sha256Hex (okSend id)).Leads (okTyped sha256Hex id ++ okSeen sha256Hex id)
      (pure (.ok ())) := by
  refine .ask (A := Answer) (q := .fileLen) (some 0) ?_
  refine .ask (A := Answer) (q := .emit _) () ?_
  refine .ask (A := Answer) (q := .muxSend _) true ?_
  refine .ask (A := Answer) (q := .sleep _) () ?_
  refine .ask (A := Answer) (q := .muxSend _) true ?_
  refine .ask (A := Answer) (q := .emit _) () ?_
  refine .ask (A := Answer) (q := .nowMs) (0 : Int) ?_
  refine .ask (A := Answer) (q := .poll 0) (.ok ["ok".toList]) ?_
  refine .ask (A := Answer) (q := .emit _) () ?_
  exact .here

/-- The digest of `ok`. -/
def okSha (_ : Bytes) : String :=
  "2689367b205c16ce32ed4200942b8b8b1e262dfc70d9bc9fbc77c49699a4f1df"

def bothTyped : Session where
  log := [(0, initiated okSha (okSend "a") 0),
    (0, chunksDelivered (okSend "a") { total := 1, acked := 1 }),
    (1, initiated okSha (okSend "b") 0),
    (1, chunksDelivered (okSend "b") { total := 1, acked := 1 })]

def firstRecorded : Session := { bothTyped with transcript := [some "ok".toList], recorded := [0] }

def firstSeen : Session :=
  { firstRecorded with log := bothTyped.log ++ [(0, messageSeen okSha (okSend "a"))] }

def bothSeen : Session :=
  { firstRecorded with log := firstSeen.log ++ [(1, messageSeen okSha (okSend "b"))] }

theorem okSend_typed {p : Sends okSha} {s : Session} {id : String}
    (hp : Pool.Reachable (rules okSha) OwnRecord {} p)
    (hs : Pool.Serves (rules okSha) p.fibers.length p.shared (okTyped okSha id) s) :
    ∃ f : Fiber (sendMuxPty okSha), f.key = okSend id ∧ f.asked = okTyped okSha id ∧
      f.rest.Leads (okSeen okSha id) (pure (.ok ())) ∧
      Pool.Reachable (rules okSha) OwnRecord {} ⟨s, p.fibers ++ [f]⟩ := by
  obtain ⟨m, hfirst, hlast⟩ := (okSend_leads okSha id).split
  have hstart := hp.step (.start (okSend id)) trivial
  have hnew : (p.fibers ++ [Fiber.new (okSend id)])[p.fibers.length]? =
      some (.new (okSend id) : Fiber (sendMuxPty okSha)) := List.getElem?_concat_length
  obtain ⟨f, hkey, hasked, hrest, hreach⟩ := hstart.serve hnew hfirst hs (by simp [okTyped, OwnRecord])
  refine ⟨f, hkey, hasked, hrest ▸ hlast, ?_⟩
  simpa using hreach

theorem firstRecorded_read (texts : List (List Char))
    (h : (.ok ["ok".toList] : Except String _) = .ok texts) :
    texts = userTexts firstRecorded.transcript 0 := by
  cases h
  rfl

theorem firstSeen_reachable : ∃ f g : Fiber (sendMuxPty okSha), f.key = okSend "a" ∧
    g.key = okSend "b" ∧ g.rest.Leads (okSeen okSha "b") (pure (.ok ())) ∧
      Pool.Reachable (rules okSha) OwnRecord {} ⟨firstSeen, [f, g]⟩ := by
  have hfirst : Pool.Serves (rules okSha) 0 {} (okTyped okSha "a")
      { log := bothTyped.log.take 2 } :=
    ⟨_, ⟨rfl, .inr rfl⟩, _, .inr rfl, _, rfl, _, rfl, _, rfl, _, .inr rfl, _, rfl, rfl⟩
  have hsecond : Pool.Serves (rules okSha) 1 { log := bothTyped.log.take 2 } (okTyped okSha "b")
      bothTyped :=
    ⟨_, ⟨rfl, .inr rfl⟩, _, .inr rfl, _, rfl, _, rfl, _, rfl, _, .inr rfl, _, rfl, rfl⟩
  obtain ⟨f, hkey, hasked, hlast, hp⟩ := okSend_typed .init hfirst
  obtain ⟨g, hkey', -, hlast', hp⟩ := okSend_typed hp hsecond
  have hmove : (rules okSha).moves ⟨bothTyped, [f, g]⟩ firstRecorded := by
    refine .inr ⟨0, f, rfl, ?_, List.not_mem_nil, ?_⟩
    · rw [hasked]
      exact ⟨⟨.muxSend "ok".toList, true⟩, (by simp [okTyped]), _, rfl⟩
    · rw [hkey]
      rfl
  have hrecord : Pool.Reachable (rules okSha) OwnRecord {} ⟨firstRecorded, [f, g]⟩ :=
    hp.step (.move hmove) trivial
  -- the first send is proved by its own record
  obtain ⟨next, hrest, hlast⟩ := Dialog.leads_cons hlast
  have hread : Pool.Step (rules okSha) ⟨firstRecorded, [f, g]⟩
      (.answer 0 ⟨.poll 0, .ok ["ok".toList]⟩) ⟨firstRecorded, [f.answer hrest _, g]⟩ :=
    .answer _ rfl hrest ⟨rfl, firstRecorded_read⟩
  have hpoll := hrecord.step hread fun _ _ _ => List.mem_cons_self
  have hseen : Pool.Serves (rules okSha) 0 firstRecorded
      [⟨.emit (messageSeen okSha (okSend "a")), ()⟩] firstSeen := ⟨_, .inr rfl, rfl⟩
  obtain ⟨f', hkeyf, -, -, hp⟩ := hpoll.serve rfl hlast hseen (by simp [OwnRecord])
  exact ⟨f', g, hkeyf.trans hkey, hkey', hlast', hp⟩

theorem oneRecordEach_firstSeen : ∃ f g : Fiber (sendMuxPty okSha), f.key = okSend "a" ∧
    g.key = okSend "b" ∧ OneRecordEach ⟨firstSeen, [f, g]⟩ := by
  obtain ⟨f, g, hf, hg, -, hp⟩ := firstSeen_reachable
  exact ⟨f, g, hf, hg, oneRecordEach_of_ownRecord hp⟩

/-- Two sends of one text that take the same snapshot: the one record proves both. -/
theorem sameSnapshot_not_oneRecordEach :
    ∃ p : Sends okSha, Pool.Reachable (rules okSha) (fun _ _ => True) {} p ∧ ¬ OneRecordEach p := by
  obtain ⟨f, g, hf, hg, hlast, hp⟩ := firstSeen_reachable
  have hpoll : Pool.Serves (rules okSha) 1 firstSeen (okSeen okSha "b") bothSeen :=
    ⟨_, ⟨rfl, firstRecorded_read⟩, _, .inr rfl, rfl⟩
  obtain ⟨g', hkey, -, -, hp⟩ := (hp.mono fun _ _ _ => trivial).serve rfl hlast hpoll
    fun _ _ _ => trivial
  refine ⟨_, hp, fun hone => ?_⟩
  -- two records of the message as seen, and one line with its text
  have hseen : (seenBy (⟨bothSeen, [f, g']⟩ : Sends okSha) "ok".toList).length = 2 := by
    have hf : f.key.message = "ok".toList := by rw [hf]; rfl
    have hg : g'.key.message = "ok".toList := by rw [hkey, hg]; rfl
    simp [seenBy, sends, bothSeen, firstSeen, bothTyped, initiated, chunksDelivered, messageSeen,
      isSeen, hf, hg]
  have hcount := (List.drop_sublist (earliest (⟨bothSeen, [f, g']⟩ : Sends okSha) "ok".toList)
    bothSeen.transcript).count_le (some "ok".toList)
  have hwhole : bothSeen.transcript.count (some "ok".toList) = 1 := by decide
  have htwo : (seenBy (⟨bothSeen, [f, g']⟩ : Sends okSha) "ok".toList).length ≤ 1 :=
    hwhole ▸ Nat.le_trans (hone "ok".toList) hcount
  omega

end QuorumDispatch.Pty
