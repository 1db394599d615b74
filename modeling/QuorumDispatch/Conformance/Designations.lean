import QuorumDispatch.Conformance.Journal

/-!
The designations of a lane: which box its evidence is to come from. `replay_designations` goes
through the designation events of a journal, and for a pending replacement derives from the whole
journal when it was promoted.
-/

namespace QuorumDispatch.Conformance

/-! ### Admissible bases -/

def withdrawalKindOk : Option DesignationBasisKind → Bool
  | some .decommissioned | some .durablyUnreachable | some .runnabilityReduced => true
  | _ => false

def redesignationKindOk : Option DesignationBasisKind → Bool
  | some _ => true
  | none => false

def initialDesignationKindOk : Option DesignationBasisKind → Bool
  | some .greaterRunnability => true
  | _ => false

def DesignationKind.debug : DesignationKind → String
  | designate => "Designate"
  | pendingReplacement => "PendingReplacement"
  | promotion => "Promotion"
  | withdrawal => "Withdrawal"

def debugBasis : Option DesignationBasisKind → String
  | none => "None"
  | some .decommissioned => "Some(Decommissioned)"
  | some .durablyUnreachable => "Some(DurablyUnreachable)"
  | some .runnabilityReduced => "Some(RunnabilityReduced)"
  | some .greaterRunnability => "Some(GreaterRunnability)"

/-! ### What the replay reads of a journal -/

namespace JournalBody

def manifest? : JournalBody → Option String
  | contextActivation (.manifest digest) => some digest
  | _ => none

def aggregation? : JournalBody → Option String
  | contextActivation (.aggregationVersion version) => some version
  | _ => none

def isActivation : JournalBody → Bool
  | contextActivation _ => true
  | _ => false

def designation? : JournalBody → Option DesignationEvent
  | designation event => some event
  | _ => none

end JournalBody

/-- `max_by_key` on the ordinal: of two entries under one ordinal the later. -/
def latestOf (xs : List (Nat × String)) : Option String :=
  (xs.foldl (fun best x => match best with
    | some b => if b.1 ≤ x.1 then some x else some b
    | none => some x) none).map (·.2)

namespace AuthorityJournal

variable (j : AuthorityJournal)

def manifestDigestEffectiveAt (ordinal : Nat) : Option String :=
  latestOf ((j.filter (·.ordinal ≤ ordinal)).filterMap fun e => e.body.manifest?.map (e.ordinal, ·))

def aggregationVersionEffectiveAt (ordinal : Nat) : Option String :=
  latestOf ((j.filter (·.ordinal ≤ ordinal)).filterMap fun e =>
    e.body.aggregation?.map (e.ordinal, ·))

def terminalOrdinal (run : String) : Option (Nat × TerminalState) :=
  j.findSome? fun e => (e.body.terminal?.filter (·.run == run)).map fun t => (e.ordinal, t.terminal)

def completedAt (run : String) : Option Nat :=
  match j.terminalOrdinal run with
  | some (ord, .completed _) => some ord
  | _ => none

def designations (lane : Lane) : List (Nat × DesignationEvent) :=
  (j.filterMap fun e => (e.body.designation?.filter (·.lane == lane)).map (e.ordinal, ·)).mergeSort
    fun a b => a.1 ≤ b.1

end AuthorityJournal

def RunEntry.evidenceOn (lane : Lane) (box : String) (entry : RunEntry) : Bool :=
  decide (lane ∈ entry.laneScope) && entry.boxId == box && entry.runKind == .evidence

structure Eligible where
  sequence : Nat
  terminalOrd : Nat
  run : String
deriving DecidableEq, Repr

section Promotion

variable (j : AuthorityJournal) (lane : Lane) (pendingBox : String) (boundary : Nat)

def lastContextChange : Option Nat :=
  (((j.filter (·.body.isActivation)).map (·.ordinal)).filter (boundary < ·)).max?

def effectiveBoundary : Nat := (lastContextChange j boundary).getD boundary

def eligible? (effBoundary : Nat) (entry : RunEntry) : Option Eligible :=
  if entry.evidenceOn lane pendingBox = false then none
  else if entry.sequence ≤ effBoundary then none
  else
    match j.completedAt entry.run with
    | none => none
    | some terminalOrd =>
        if j.manifestDigestEffectiveAt entry.sequence = some entry.manifestDigest ∧
            j.aggregationVersionEffectiveAt entry.sequence = some entry.aggregationVersion then
          some ⟨entry.sequence, terminalOrd, entry.run⟩
        else none

def Eligible.le (a b : Eligible) : Bool :=
  a.sequence < b.sequence || (a.sequence == b.sequence && decide (a.run ≤ b.run))

def eligibleRuns : List Eligible :=
  (j.runEntries.filterMap (eligible? j lane pendingBox (effectiveBoundary j boundary))).mergeSort
    Eligible.le

/-- A withdrawal that names the pending box, up to the ordinal. -/
def preemptingWithdrawal (p : Nat) : Bool :=
  j.any fun e => e.body.designation?.any fun d => d.lane == lane && d.kind == .withdrawal &&
    d.boxId == pendingBox && decide (boundary < e.ordinal) && decide (e.ordinal ≤ p)

def derivedPromotion (window : Nat) : Option Nat :=
  if window ≤ (eligibleRuns j lane pendingBox boundary).length then
    ((eligibleRuns j lane pendingBox boundary)[window - 1]?.map (·.terminalOrd)).filter fun p =>
      !preemptingWithdrawal j lane pendingBox boundary p
  else none

/-- No evidence run on the pending box is started and not terminal at the ordinal. -/
def quietWindow (ord : Nat) : Bool :=
  j.runEntries.all fun entry => !entry.evidenceOn lane pendingBox ||
    (j.startOrdinal entry.run).all fun start =>
      !decide (start < ord) || (j.terminalOrdinal entry.run).any (·.1 < ord)

end Promotion

/-! ### The replay -/

structure DesignationHistoryEntry where
  ordinal : Nat
  kind : String
  boxId : String
  policyBasis : String
  rationale : String
  authorizedBy : String
  timestamp : String
deriving DecidableEq, Repr

def DesignationHistoryEntry.of (ord : Nat) (ev : DesignationEvent) : DesignationHistoryEntry where
  ordinal := ord
  kind := ev.kind.debug
  boxId := ev.boxId
  policyBasis := ev.policyBasis
  rationale := ev.rationale
  authorizedBy := ev.authorizedBy
  timestamp := ev.timestamp

structure DesignationReplay where
  activeBox : Option String := none
  activeBoundary : Nat := 0
  pendingBox : Option String := none
  boundary : Option Nat := none
  promotionOrdinal : Option Nat := none
  history : List DesignationHistoryEntry := []
  accumulation : Nat := 0
  legalityErrors : List String := []
deriving DecidableEq, Repr

namespace DesignationReplay

variable (j : AuthorityJournal) (lane : Lane) (window : Nat)

def error (r : DesignationReplay) (message : String) : DesignationReplay :=
  { r with legalityErrors := r.legalityErrors ++ [message] }

def errorIf (bad : Bool) (message : String) (r : DesignationReplay) : DesignationReplay :=
  if bad then r.error message else r

def derivePromotion (boundary : Nat) (pendingBox : String) (r : DesignationReplay) :
    DesignationReplay :=
  let r := { r with accumulation := (eligibleRuns j lane pendingBox boundary).length }
  match derivedPromotion j lane pendingBox boundary window with
  | none => r
  | some p => { r with
      promotionOrdinal := some p
      activeBox := some pendingBox
      activeBoundary := boundary
      pendingBox := none
      boundary := none }

def designate (ord : Nat) (ev : DesignationEvent) (r : DesignationReplay) : DesignationReplay :=
  if r.activeBox.isSome then
    r.error ("designation replay: a second initial Designate at ordinal " ++ toString ord ++
      " while an active designation stands — re-designation must be a PendingReplacement (A9)")
  else
    let r := r.errorIf (!initialDesignationKindOk ev.basisKind)
      ("designation replay: an initial Designate at ordinal " ++ toString ord ++
        " carries basis kind " ++ debugBasis ev.basisKind ++
        ", not an admissible outcome-independent designation kind (A9/RT-6)")
    { r with activeBox := some ev.boxId, activeBoundary := ord }

def pendingReplacement (ord : Nat) (ev : DesignationEvent) (r : DesignationReplay) :
    DesignationReplay :=
  if r.activeBox.isNone then
    r.error ("designation replay: a PendingReplacement at ordinal " ++ toString ord ++
      " with no active designation to replace (A9)")
  else if r.pendingBox.isSome then
    r.error ("designation replay: a second PendingReplacement at ordinal " ++ toString ord ++
      " while one is outstanding — the outstanding one must be withdrawn first (A9)")
  else
    let r := r.errorIf (!redesignationKindOk ev.basisKind)
      ("designation replay: a PendingReplacement at ordinal " ++ toString ord ++
        " carries basis kind " ++ debugBasis ev.basisKind ++
        ", not an admissible outcome-independent re-designation kind (A9/RT-6)")
    let r := { r with pendingBox := some ev.boxId, boundary := some ord }
    derivePromotion j lane window ord ev.boxId r

def beforePromotion (r : DesignationReplay) (ord : Nat) : Bool :=
  (r.promotionOrdinal.map fun p => decide (ord < p)).getD true

def withdrawal (ord : Nat) (ev : DesignationEvent) (r : DesignationReplay) : DesignationReplay :=
  let r := r.errorIf (r.promotionOrdinal.any (· ≤ ord))
    ("designation replay: a Withdrawal at ordinal " ++ toString ord ++
      " at or after the derived promotion ordinal " ++ toString (r.promotionOrdinal.getD 0) ++
      " — cannot withdraw what promoted (R5-O5)")
  match r.pendingBox with
  | none => r.errorIf (r.beforePromotion ord) ("designation replay: a Withdrawal at ordinal " ++
      toString ord ++ " with no outstanding pending replacement (A9)")
  | some pending =>
      if ev.boxId ≠ pending then
        r.error ("designation replay: a Withdrawal at ordinal " ++ toString ord ++ " names box " ++
          reprStr ev.boxId ++ " but the outstanding pending is " ++ reprStr pending ++
          " — a withdrawal must name the pending box it retires (RT-5)")
      else
        let r := r.errorIf (!withdrawalKindOk ev.basisKind)
          ("designation replay: a Withdrawal at ordinal " ++ toString ord ++
            " carries basis kind " ++ debugBasis ev.basisKind ++
            ", not an admissible outcome-independent withdrawal kind (R5-O5/RT-6)")
        let r := r.errorIf (!quietWindow j lane pending ord)
          ("designation replay: a Withdrawal at ordinal " ++ toString ord ++ " lands during a " ++
            "started-not-terminal pending-box evidence run — not a quiet window (R6-2)")
        if r.beforePromotion ord then
          { r with pendingBox := none, boundary := none, accumulation := 0 }
        else r

def step (r : DesignationReplay) : Nat × DesignationEvent → DesignationReplay
  | (ord, ev) =>
      let r := { r with history := r.history ++ [DesignationHistoryEntry.of ord ev] }
      match ev.kind with
      | .promotion => r.error ("designation replay: a promotion event at ordinal " ++ toString ord ++
          " is structurally invalid — promotion is derived (R5-O5)")
      | .designate => r.designate ord ev
      | .pendingReplacement => r.pendingReplacement j lane window ord ev
      | .withdrawal => r.withdrawal j lane ord ev

end DesignationReplay

def replayDesignations (j : AuthorityJournal) (lane : Lane) (window : Nat) : DesignationReplay :=
  (j.designations lane).foldl (DesignationReplay.step j lane window) {}

end QuorumDispatch.Conformance
