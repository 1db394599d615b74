import Mathlib.Data.Finset.Basic
import Mathlib.Data.Finset.Insert

/-!
The decision core of `qd reconcile`: from the live registry rows, the raw
cross-dir zmx list and a liveness predicate it plans which registry rows to
tombstone (I1) and which wrappers to reap (I3). The safety floor I5 asks that
no planned action carry the pid of a live process.

A wrapper row that reports itself ended, unreachable or in error is classified
dead by that report alone; its recorded pid is never probed. The floor
therefore holds of a plan exactly when no unattached row of that kind records
a live pid, and such a row is also what keeps a pass that was carried out from
being the last.
-/

namespace QuorumDispatch.Reconcile

structure RegistryEntry where
  pid : Option Int := none
  sessionId : Option String := none
  name : Option String := none
deriving DecidableEq, Repr

structure MuxSession where
  name : String
  pid : Int
  clients : Nat
  socketDir : Option String := none
  ended : Option Int := none
  zmxStatus : Option String := none
  err : Option String := none
deriving DecidableEq, Repr

inductive Action where
  | tombstoneDeadRegistry (pid : Int) (detail : String)
  | reapOrphanWrapper (pid : Int) (name : String) (socketDir : Option String)
      (detail : String)
deriving DecidableEq, Repr

/-- The pid an action targets: the registry pid, or the wrapper pid that the
verb kills when it is positive. -/
def Action.pid : Action → Int
  | .tombstoneDeadRegistry pid _ => pid
  | .reapOrphanWrapper pid _ _ _ => pid

structure Plan where
  actions : List Action := []
  liveRegistryPids : Finset Int := ∅
deriving DecidableEq

def planEntry (isAlive : Int → Bool) (p : Plan) (entry : RegistryEntry) : Plan :=
  match entry.pid with
  | none => p
  | some pid =>
      if isAlive pid then
        { p with liveRegistryPids := insert pid p.liveRegistryPids }
      else
        let label := (entry.name.or entry.sessionId).getD ""
        { p with actions := p.actions ++
            [.tombstoneDeadRegistry pid s!"{label} (pid {pid} dead)"] }

def MuxSession.dead (z : MuxSession) : Bool :=
  z.ended.isSome || z.zmxStatus == some "unreachable" || z.err.isSome

def reapDetail (z : MuxSession) : String :=
  let dir := z.socketDir.getD "?"
  if z.dead then
    s!"zmx \"{z.name}\" (ended/unreachable, in {dir})"
  else
    s!"zmx \"{z.name}\" (pid {z.pid} dead, in {dir})"

def planWrapper (isAlive : Int → Bool) (p : Plan) (z : MuxSession) : Plan :=
  if z.clients > 0 then p
  else
    let wrapperAlive := !z.dead && isAlive z.pid
    if wrapperAlive then p
    else if !z.dead && decide (z.pid ∈ p.liveRegistryPids) then p
    else { p with actions := p.actions ++
      [.reapOrphanWrapper z.pid z.name z.socketDir (reapDetail z)] }

def plan (registry : List RegistryEntry) (zmxRaw : List MuxSession)
    (isAlive : Int → Bool) : Plan :=
  zmxRaw.foldl (planWrapper isAlive) (registry.foldl (planEntry isAlive) {})

/-! ### What each loop contributes -/

/-- The I1 loop keeps two facts: it tombstones dead pids only, and it collects
live pids only. -/
structure EntriesSpared (isAlive : Int → Bool) (p : Plan) : Prop where
  tombstones : ∀ a ∈ p.actions, isAlive a.pid = false
  live : ∀ pid ∈ p.liveRegistryPids, isAlive pid = true

theorem planEntry_spared {isAlive : Int → Bool} {p : Plan} (entry : RegistryEntry)
    (h : EntriesSpared isAlive p) : EntriesSpared isAlive (planEntry isAlive p entry) := by
  unfold planEntry
  cases entry.pid with
  | none => exact h
  | some pid =>
      cases hpid : isAlive pid with
      | true =>
          refine ⟨by simpa [hpid] using h.tombstones, ?_⟩
          intro q hq
          simp only [hpid, if_true, Finset.mem_insert] at hq
          rcases hq with rfl | hq
          · exact hpid
          · exact h.live q hq
      | false =>
          refine ⟨?_, by simpa [hpid] using h.live⟩
          intro a ha
          simp only [hpid, Bool.false_eq_true, if_false, List.mem_append,
            List.mem_singleton] at ha
          rcases ha with ha | rfl
          · exact h.tombstones a ha
          · exact hpid

theorem foldl_planEntry_spared (isAlive : Int → Bool) (registry : List RegistryEntry)
    {p : Plan} (h : EntriesSpared isAlive p) :
    EntriesSpared isAlive (registry.foldl (planEntry isAlive) p) := by
  induction registry generalizing p with
  | nil => exact h
  | cons entry registry ih => exact ih (planEntry_spared entry h)

def reapAction (isAlive : Int → Bool) (live : Finset Int) (z : MuxSession) :
    Option Action :=
  if z.clients = 0 ∧ (z.dead = true ∨ (isAlive z.pid = false ∧ z.pid ∉ live)) then
    some (.reapOrphanWrapper z.pid z.name z.socketDir (reapDetail z))
  else none

theorem planWrapper_eq (isAlive : Int → Bool) (p : Plan) (z : MuxSession) :
    planWrapper isAlive p z =
      { p with actions := p.actions ++
          (reapAction isAlive p.liveRegistryPids z).toList } := by
  by_cases hc : z.clients = 0
  · cases hd : z.dead <;> cases ha : isAlive z.pid <;>
      by_cases hl : z.pid ∈ p.liveRegistryPids <;>
      simp [planWrapper, reapAction, hc, hd, ha, hl]
  · have hpos : 0 < z.clients := Nat.pos_of_ne_zero hc
    simp [planWrapper, reapAction, hc, hpos]

theorem foldl_planWrapper (isAlive : Int → Bool) (zmxRaw : List MuxSession) (p : Plan) :
    zmxRaw.foldl (planWrapper isAlive) p =
      { p with actions := p.actions ++
          zmxRaw.filterMap (reapAction isAlive p.liveRegistryPids) } := by
  induction zmxRaw generalizing p with
  | nil => simp
  | cons z zmxRaw ih =>
      rw [List.foldl_cons, ih, planWrapper_eq]
      cases hz : reapAction isAlive p.liveRegistryPids z <;>
        simp [hz]

theorem reapAction_pid {isAlive : Int → Bool} {live : Finset Int} {z : MuxSession}
    {a : Action} (h : reapAction isAlive live z = some a) :
    a.pid = z.pid ∧ z.clients = 0 ∧ (z.dead = true ∨ isAlive z.pid = false) := by
  unfold reapAction at h
  split at h
  · next hz =>
      cases h
      exact ⟨rfl, hz.1, hz.2.imp_right And.left⟩
  · cases h

theorem reapAction_filter_clients (isAlive : Int → Bool) (live : Finset Int)
    (zmxRaw : List MuxSession) :
    (zmxRaw.filter (·.clients == 0)).filterMap (reapAction isAlive live) =
      zmxRaw.filterMap (reapAction isAlive live) := by
  induction zmxRaw with
  | nil => rfl
  | cons z zmxRaw ih =>
      by_cases hc : z.clients = 0
      · simp [hc, ih, List.filterMap_cons]
      · have hnone : reapAction isAlive live z = none := by simp [reapAction, hc]
        simp [hc, ih, hnone]

/-! ### The safety floor -/

/-- I5 of a plan: no action carries a pid the predicate calls alive or a pid of
a live registry row, and the attached rows of the zmx list contribute nothing
to the plan. -/
structure SparesLive (registry : List RegistryEntry) (zmxRaw : List MuxSession)
    (isAlive : Int → Bool) : Prop where
  alive : ∀ a ∈ (plan registry zmxRaw isAlive).actions, isAlive a.pid = false
  registered : ∀ a ∈ (plan registry zmxRaw isAlive).actions,
    ∀ entry ∈ registry, ∀ pid, entry.pid = some pid → isAlive pid = true → a.pid ≠ pid
  attached : (plan registry zmxRaw isAlive).actions =
    (plan registry (zmxRaw.filter (·.clients == 0)) isAlive).actions

/-- A plan honours I5 exactly when no unattached row that reports itself ended,
unreachable or in error still records a live pid. -/
theorem plan_sparesLive_iff (registry : List RegistryEntry) (zmxRaw : List MuxSession)
    (isAlive : Int → Bool) :
    SparesLive registry zmxRaw isAlive ↔
      ∀ z ∈ zmxRaw, z.clients = 0 → z.dead = true → isAlive z.pid = false := by
  have hentries : EntriesSpared isAlive (registry.foldl (planEntry isAlive) {}) :=
    foldl_planEntry_spared isAlive registry ⟨by simp, by simp⟩
  have hactions : ∀ rows : List MuxSession, (plan registry rows isAlive).actions =
      (registry.foldl (planEntry isAlive) {}).actions ++
        rows.filterMap (reapAction isAlive
          (registry.foldl (planEntry isAlive) {}).liveRegistryPids) := by
    intro rows
    rw [plan, foldl_planWrapper]
  constructor
  · intro h z hz hclients hdead
    -- the row is reaped whatever its pid does, so its pid is in an action
    have hreap : reapAction isAlive
        (registry.foldl (planEntry isAlive) {}).liveRegistryPids z =
          some (.reapOrphanWrapper z.pid z.name z.socketDir (reapDetail z)) := by
      simp [reapAction, hclients, hdead]
    apply h.alive (.reapOrphanWrapper z.pid z.name z.socketDir (reapDetail z))
    rw [hactions]
    exact List.mem_append_right _ (List.mem_filterMap.mpr ⟨z, hz, hreap⟩)
  · intro h
    have halive : ∀ a ∈ (plan registry zmxRaw isAlive).actions,
        isAlive a.pid = false := by
      intro a ha
      rw [hactions] at ha
      rcases List.mem_append.mp ha with ha | ha
      · exact hentries.tombstones a ha
      · obtain ⟨z, hz, hreap⟩ := List.mem_filterMap.mp ha
        obtain ⟨hpid, hclients, hdead | hgone⟩ := reapAction_pid hreap
        · rw [hpid]
          exact h z hz hclients hdead
        · rw [hpid]
          exact hgone
    refine ⟨halive, ?_, ?_⟩
    · intro a ha entry _ pid _ hpid heq
      rw [← heq, halive a ha] at hpid
      exact Bool.false_ne_true hpid
    · rw [hactions, hactions, reapAction_filter_clients]

/-- An ended row whose recorded pid has been taken over by a live process. -/
def endedRow : MuxSession :=
  { name := "ended", pid := 500, clients := 0, ended := some 1700000000 }

theorem plan_endedRow_not_sparesLive :
    ¬ SparesLive [] [endedRow] (fun pid => pid == 500) := by
  intro h
  exact absurd (h.alive (.reapOrphanWrapper 500 "ended" none (reapDetail endedRow))
    (by decide)) (by decide)

/-! ### A plan that is carried out -/

section CarryOut

variable (canonical : String)

/-- Its registry file is renamed. -/
def Action.tombstones (entry : RegistryEntry) : Action → Bool
  | .tombstoneDeadRegistry pid _ => entry.pid == some pid
  | .reapOrphanWrapper .. => false

/-- `mux.kill`; a row without a directory is one of the canonical directory. -/
def Action.reaps (z : MuxSession) : Action → Bool
  | .tombstoneDeadRegistry .. => false
  | .reapOrphanWrapper _ name socketDir _ =>
      z.socketDir.getD canonical == socketDir.getD canonical && z.name == name

/-- `kill_pid`, which is for a positive pid only. -/
def Action.kills (p : Int) : Action → Bool
  | .tombstoneDeadRegistry .. => false
  | .reapOrphanWrapper pid .. => decide (0 < pid) && p == pid

/-- What a pass finds. -/
structure World where
  registry : List RegistryEntry
  zmxRaw : List MuxSession
  isAlive : Int → Bool

namespace World

variable (w : World)

def actions : List Action := (plan w.registry w.zmxRaw w.isAlive).actions

/-- What is left when an action has been carried out, and nothing has failed. -/
def carryOut (a : Action) : World where
  registry := w.registry.filter fun entry => !a.tombstones entry
  zmxRaw := w.zmxRaw.filter fun z => !a.reaps canonical z
  isAlive p := w.isAlive p && !a.kills p

/-- One pass of the verb. -/
def reconcile : World := w.actions.foldl (carryOut canonical) w

end World

variable {canonical}

theorem foldl_carryOut (actions : List Action) (w : World) :
    actions.foldl (World.carryOut canonical) w =
      { registry := w.registry.filter fun entry => actions.all fun a => !a.tombstones entry
        zmxRaw := w.zmxRaw.filter fun z => actions.all fun a => !a.reaps canonical z
        isAlive := fun p => w.isAlive p && actions.all fun a => !a.kills p } := by
  induction actions generalizing w with
  | nil => simp
  | cons a actions ih =>
      rw [List.foldl_cons, ih]
      simp only [World.carryOut, List.filter_filter, List.all_cons, Bool.and_assoc]
      congr 1 <;> exact List.filter_congr fun _ _ => Bool.and_comm ..

/-- The tombstone planned for one entry, if any. -/
def tombstoneAction (isAlive : Int → Bool) (entry : RegistryEntry) : Option Action :=
  (entry.pid.filter fun pid => !isAlive pid).map fun pid =>
    let label := (entry.name.or entry.sessionId).getD ""
    .tombstoneDeadRegistry pid s!"{label} (pid {pid} dead)"

theorem exists_tombstoneAction {isAlive : Int → Bool} {entry : RegistryEntry} {pid : Int} (hpid : entry.pid = some pid)
    (hdead : ¬ isAlive pid = true) : ∃ detail, tombstoneAction isAlive entry = some (.tombstoneDeadRegistry pid detail) := by
  rw [tombstoneAction, hpid, Option.filter, if_pos (by simpa using hdead)]
  exact ⟨_, rfl⟩

theorem foldl_planEntry_actions (isAlive : Int → Bool) (registry : List RegistryEntry) (p : Plan) :
    (registry.foldl (planEntry isAlive) p).actions = p.actions ++ registry.filterMap (tombstoneAction isAlive) := by
  induction registry generalizing p with
  | nil => simp
  | cons entry registry ih =>
      rw [List.foldl_cons, ih]
      unfold planEntry
      cases hpid : entry.pid with
      | none => simp [tombstoneAction, hpid]
      | some pid => cases halive : isAlive pid <;> simp [tombstoneAction, hpid, halive]

/-- The row is reaped: it reports its end, or its pid is dead. -/
def MuxSession.Orphan (isAlive : Int → Bool) (z : MuxSession) : Prop :=
  z.clients = 0 ∧ (z.dead = true ∨ isAlive z.pid = false)

theorem mem_actions {w : World} {a : Action} : a ∈ w.actions ↔
    (∃ entry ∈ w.registry, tombstoneAction w.isAlive entry = some a) ∨
      ∃ z ∈ w.zmxRaw, z.Orphan w.isAlive ∧ a = .reapOrphanWrapper z.pid z.name z.socketDir (reapDetail z) := by
  have hspared := foldl_planEntry_spared w.isAlive w.registry (p := {}) ⟨by simp, by simp⟩
  rw [World.actions, plan, foldl_planWrapper, List.mem_append, foldl_planEntry_actions, List.mem_append,
    List.mem_filterMap, List.mem_filterMap]
  refine or_congr ⟨fun h => h.resolve_left (by simp), .inr⟩ (exists_congr fun z => and_congr_right fun _ => ?_)
  -- a pid that is not alive is of no live entry
  have horphan : (z.clients = 0 ∧ (z.dead = true ∨ w.isAlive z.pid = false ∧
      z.pid ∉ (w.registry.foldl (planEntry w.isAlive) {}).liveRegistryPids)) ↔ z.Orphan w.isAlive := by
    refine and_congr_right fun _ => or_congr_right ⟨And.left, fun hdead => ⟨hdead, fun hlive => ?_⟩⟩
    rw [hspared.live _ hlive] at hdead
    cases hdead
  unfold reapAction
  split
  case isTrue h => simp [horphan.mp h, eq_comm]
  case isFalse h => simp [mt horphan.mpr h]

theorem actions_eq_nil {w : World} : w.actions = [] ↔
    (∀ entry ∈ w.registry, ∀ pid, entry.pid = some pid → w.isAlive pid = true) ∧
      ∀ z ∈ w.zmxRaw, ¬ z.Orphan w.isAlive := by
  rw [List.eq_nil_iff_forall_not_mem]
  constructor
  · intro h
    refine ⟨fun entry hentry pid hpid => ?_, fun z hz horphan => h _ (mem_actions.mpr (.inr ⟨z, hz, horphan, rfl⟩))⟩
    by_contra hdead
    obtain ⟨detail, hplanned⟩ := exists_tombstoneAction hpid hdead
    exact h _ (mem_actions.mpr (.inl ⟨entry, hentry, hplanned⟩))
  · rintro ⟨hregistry, hzmx⟩ a ha
    rcases mem_actions.mp ha with ⟨entry, hentry, htombstone⟩ | ⟨z, hz, horphan, -⟩
    · obtain ⟨pid, hpid, -⟩ := Option.map_eq_some_iff.mp htombstone
      obtain ⟨hpid, hdead⟩ := Option.filter_eq_some_iff.mp hpid
      rw [hregistry entry hentry pid hpid] at hdead
      cases hdead
    · exact hzmx z hz horphan

/-- A row of the registry is left when its process lives. -/
theorem all_tombstones {w : World} {entry : RegistryEntry} (hentry : entry ∈ w.registry) :
    (w.actions.all fun a => !a.tombstones entry) = true ↔
      ∀ pid, entry.pid = some pid → w.isAlive pid = true := by
  rw [List.all_eq_true]
  constructor
  · intro h pid hpid
    by_contra hdead
    obtain ⟨detail, hplanned⟩ := exists_tombstoneAction hpid hdead
    simpa [Action.tombstones, hpid] using h _ (mem_actions.mpr (.inl ⟨entry, hentry, hplanned⟩))
  · intro h a ha
    rcases mem_actions.mp ha with ⟨entry', -, htombstone⟩ | ⟨z, -, -, rfl⟩
    · obtain ⟨pid, hpid, rfl⟩ := Option.map_eq_some_iff.mp htombstone
      obtain ⟨-, hdead⟩ := Option.filter_eq_some_iff.mp hpid
      have hne : entry.pid ≠ some pid := fun hpid => by simp [h pid hpid] at hdead
      simpa [Action.tombstones] using hne
    · rfl

theorem not_orphan_of_all_reaps {w : World} {z : MuxSession} (hz : z ∈ w.zmxRaw)
    (h : (w.actions.all fun a => !a.reaps canonical z) = true) : ¬ z.Orphan w.isAlive := by
  intro horphan
  simpa [Action.reaps] using List.all_eq_true.mp h _ (mem_actions.mpr (.inr ⟨z, hz, horphan, rfl⟩))

theorem all_kills {w : World} {p : Int} : (w.actions.all fun a => !a.kills p) = true ↔
    ∀ z ∈ w.zmxRaw, z.Orphan w.isAlive → 0 < z.pid → p ≠ z.pid := by
  rw [List.all_eq_true]
  constructor
  · intro h z hz horphan hpos
    simpa [Action.kills, hpos] using h _ (mem_actions.mpr (.inr ⟨z, hz, horphan, rfl⟩))
  · intro h a ha
    rcases mem_actions.mp ha with ⟨entry, -, htombstone⟩ | ⟨z, hz, horphan, rfl⟩
    · obtain ⟨pid, -, rfl⟩ := Option.map_eq_some_iff.mp htombstone
      rfl
    · by_cases hpos : 0 < z.pid
      · simpa [Action.kills, hpos] using h z hz horphan hpos
      · simp [Action.kills, hpos]

/-- **One pass settles.** The plan of the next pass is empty exactly when no process that was killed for the
wrapper of an ended task stands in a row of the registry, or is the wrapper of a task that goes on. -/
theorem reconcile_settles_iff (w : World) : (w.reconcile canonical).actions = [] ↔
    ∀ z ∈ w.zmxRaw, z.clients = 0 → z.dead = true → 0 < z.pid → w.isAlive z.pid = true →
      (∀ entry ∈ w.registry, entry.pid ≠ some z.pid) ∧
        ∀ y ∈ (w.reconcile canonical).zmxRaw, y.clients = 0 → y.pid ≠ z.pid := by
  rw [World.reconcile, foldl_carryOut, actions_eq_nil]
  dsimp only
  constructor
  · rintro ⟨hregistry, hzmx⟩ z hz hclients hdead hpos halive
    have hkilled : (w.actions.all fun a => !a.kills z.pid) = false := by
      rw [Bool.eq_false_iff]
      exact fun h => all_kills.mp h z hz ⟨hclients, .inl hdead⟩ hpos rfl
    refine ⟨fun entry hentry hpid => ?_, fun y hy hyclients heq => hzmx y hy ⟨hyclients, .inr ?_⟩⟩
    · have hkept := (all_tombstones hentry).mpr fun pid hpid' => by
        rw [hpid] at hpid'
        cases hpid'
        exact halive
      have hleft := hregistry entry (List.mem_filter.mpr ⟨hentry, hkept⟩) z.pid hpid
      rw [hkilled, Bool.and_false] at hleft
      cases hleft
    · change (w.isAlive y.pid && w.actions.all fun a => !a.kills y.pid) = false
      rw [heq, hkilled, Bool.and_false]
  · intro h
    constructor
    · intro entry hentry pid hpid
      obtain ⟨hentry, hkept⟩ := List.mem_filter.mp hentry
      have halive := (all_tombstones hentry).mp hkept pid hpid
      rw [halive, Bool.true_and, all_kills]
      rintro z hz ⟨hclients, hend⟩ hpos rfl
      have hdead := hend.resolve_right (by simp [halive])
      exact (h z hz hclients hdead hpos halive).1 entry hentry hpid
    · rintro y hy ⟨hyclients, hyend⟩
      obtain ⟨hymem, hykept⟩ := List.mem_filter.mp hy
      have hnot := not_orphan_of_all_reaps hymem hykept
      rcases hyend with hdead | hgone
      · exact hnot ⟨hyclients, .inl hdead⟩
      · change (w.isAlive y.pid && w.actions.all fun a => !a.kills y.pid) = false at hgone
        have halive : w.isAlive y.pid = true := by
          rw [← Bool.not_eq_false]
          exact fun h => hnot ⟨hyclients, .inr h⟩
        rw [halive, Bool.true_and, ← Bool.not_eq_true, all_kills] at hgone
        push Not at hgone
        obtain ⟨z, hz, ⟨hclients, hend⟩, hpos, heq⟩ := hgone
        have hdead := hend.resolve_right (by simp [← heq, halive])
        exact (h z hz hclients hdead hpos (heq ▸ halive)).2 y hy hyclients heq

end CarryOut

end QuorumDispatch.Reconcile
