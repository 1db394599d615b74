import QuorumDispatch.IdStore
import QuorumDispatch.Lib.Digits
import QuorumDispatch.Sessions.Rows

/-!
How a query finds a session. Seven tiers are asked in order, and the first that decides does so
for good; a tier with more than one match is decided for one of them by the liveness of the rows
or by the rule for a bridge and its twin, and otherwise says that there are many.
-/

namespace QuorumDispatch.Resolve

open Lib
open Sessions (Session rowIsAcp)
open IdStore (Lowercase alphabet isValidId)

inductive Resolution where
  | one (s : Session)
  | many (rows : List Session)
  | none
deriving DecidableEq

section Resolver

variable (lower : Lowercase) (isAlive : Session → Bool)

/-! ### Questions to a row -/

/-- `str::starts_with`. -/
def startsWith (text start : String) : Bool := start.toList.isPrefixOf text.toList

def named (q : String) (s : Session) : Bool := s.name.map lower.apply == some q

def nameStarts (q : String) (s : Session) : Bool :=
  s.name.any fun n => startsWith (lower.apply n) q

def idStarts (q : String) (s : Session) : Bool := s.qdId.any fun id => startsWith id q

def uuidStarts (q : String) (s : Session) : Bool := startsWith (lower.apply s.sessionId) q

def muxNamed (q : String) (s : Session) : Bool :=
  s.zmxName.any fun z => lower.apply z == q || startsWith (lower.apply z) q

def isAcp (s : Session) : Bool := rowIsAcp s.provider s.hosting

/-- `is_alphabet_prefix`. -/
def isAlphabetPrefix (s : String) : Bool :=
  !s.isEmpty && (lower.apply s).toList.all (alphabet.contains ·)

/-- The number that a text begins with, as JavaScript reads it. -/
def parseIntPrefix (s : String) : Option Int64 :=
  let t := s.toList.dropWhile isWhitespace
  let sign := t.take (if t.head? = some '+' ∨ t.head? = some '-' then 1 else 0)
  let run := (t.drop sign.length).takeWhile Char.isDigit
  if run.isEmpty then Option.none else (parseI64 (sign ++ run)).map .ofInt

/-! ### Several matches -/

def refine (matched : List Session) : Option Resolution :=
  match matched.filter isAlive with
  | [] => Option.none
  | [s] => some (.one s)
  | live => some (.many live)

/-- The one bridge row among matches that all carry its session id. -/
def acpFloorOriginal (matched : List Session) : Option Session :=
  match matched.filter isAcp with
  | [original] =>
      if original.sessionId.isEmpty then Option.none
      else if matched.all (·.sessionId == original.sessionId) then some original
      else Option.none
  | _ => Option.none

def floorOrMany (matched : List Session) : Option Resolution :=
  match acpFloorOriginal matched with
  | some original => some (.one original)
  | Option.none => some (.many matched)

/-- A tier without a match does not decide, and one with a single match is for
that. -/
def pick (matched : List Session) (several : List Session → Option Resolution) :
    Option Resolution :=
  match matched with
  | [] => Option.none
  | [s] => some (.one s)
  | matched => several matched

/-! ### The tiers -/

/-- The rows with the full id, unless others have it for a name. Rows are told
apart by their place in the list. -/
def fullIdTier (q : String) (sessions : List Session) : Option Resolution :=
  if isValidId lower q then
    let rows := sessions.zipIdx
    let idMatch := rows.filter fun r => r.1.qdId == some q
    let nameShadow := if idMatch.isEmpty then []
      else rows.filter fun r => named lower q r.1 && !idMatch.any (·.2 == r.2)
    if !nameShadow.isEmpty then some (.many ((idMatch ++ nameShadow).map Prod.fst))
    else pick (idMatch.map Prod.fst) fun matched =>
      match acpFloorOriginal matched with
      | some original => some (.one original)
      | Option.none => some ((refine isAlive matched).getD (.many matched))
  else Option.none

def pidTier (query : String) (sessions : List Session) : Option Resolution :=
  match parseIntPrefix query with
  | some num =>
      if 0 < num then pick (sessions.filter (·.pid == some num)) (some ∘ .many) else Option.none
  | Option.none => Option.none

def exactNameTier (q : String) (sessions : List Session) : Option Resolution :=
  pick (sessions.filter (named lower q)) (refine isAlive)

def namePrefixTier (q : String) (sessions : List Session) : Option Resolution :=
  pick (sessions.filter (nameStarts lower q)) floorOrMany

def idPrefixTier (q : String) (sessions : List Session) : Option Resolution :=
  if 2 ≤ q.length ∧ isAlphabetPrefix lower q = true then
    pick (sessions.filter (idStarts q)) floorOrMany
  else Option.none

def uuidPrefixTier (q : String) (sessions : List Session) : Option Resolution :=
  pick (sessions.filter (uuidStarts lower q)) floorOrMany

def muxNameTier (q : String) (sessions : List Session) : Option Resolution :=
  pick (sessions.filter (muxNamed lower q)) (some ∘ .many)

def resolveSessionWithLiveness (query : String) (sessions : List Session) : Resolution :=
  let q := lower.apply query
  (fullIdTier lower isAlive q sessions
    <|> pidTier query sessions
    <|> exactNameTier lower isAlive q sessions
    <|> namePrefixTier lower q sessions
    <|> idPrefixTier lower q sessions
    <|> uuidPrefixTier lower q sessions
    <|> muxNameTier lower q sessions).getD .none

end Resolver

/-! ### The tiers by their matches -/

inductive Tier where
  | fullId
  | pid
  | exactName
  | namePrefix
  | idPrefix
  | uuidPrefix
  | muxName
deriving DecidableEq, Repr

def Tier.all : List Tier :=
  [.fullId, .pid, .exactName, .namePrefix, .idPrefix, .uuidPrefix, .muxName]

variable {lower : Lowercase} {isAlive : Session → Bool} {query : String} {sessions : List Session}

def Tier.Matches (lower : Lowercase) (query : String) (t : Tier) (s : Session) : Bool :=
  let q := lower.apply query
  match t with
  | fullId => isValidId lower q && s.qdId == some q
  | pid => (parseIntPrefix query).any fun num => 0 < num && s.pid == some num
  | exactName => named lower q s
  | namePrefix => nameStarts lower q s
  | idPrefix => decide (2 ≤ q.length ∧ isAlphabetPrefix lower q = true) && idStarts q s
  | uuidPrefix => uuidStarts lower q s
  | muxName => muxNamed lower q s

def Tier.rows (lower : Lowercase) (query : String) (sessions : List Session) (t : Tier) :
    List Session :=
  sessions.filter (t.Matches lower query)

def shadows (lower : Lowercase) (query : String) (sessions : List Session) : List Session :=
  sessions.filter fun s => named lower (lower.apply query) s && !Tier.fullId.Matches lower query s

def Tier.decision (lower : Lowercase) (isAlive : Session → Bool) (query : String)
    (sessions : List Session) (t : Tier) : Option Resolution :=
  let rows := t.rows lower query sessions
  match t with
  | fullId =>
      if rows ≠ [] ∧ shadows lower query sessions ≠ [] then
        some (.many (rows ++ shadows lower query sessions))
      else pick rows fun matched =>
        match acpFloorOriginal matched with
        | some original => some (.one original)
        | none => some ((refine isAlive matched).getD (.many matched))
  | exactName => pick rows (refine isAlive)
  | pid | muxName => pick rows (some ∘ .many)
  | namePrefix | idPrefix | uuidPrefix => pick rows floorOrMany

theorem map_fst_filter_zipIdx (p : Session → Bool) (sessions : List Session) (n : Nat) :
    ((sessions.zipIdx n).filter fun r => p r.1).map Prod.fst = sessions.filter p := by
  induction sessions generalizing n with
  | nil => rfl
  | cons s sessions ih =>
      rw [List.zipIdx_cons, List.filter_cons, List.filter_cons]
      split
      · rw [List.map_cons, ih]
      · exact ih _

theorem any_place_iff {p : Session → Bool} {r : Session × Nat} (hr : r ∈ sessions.zipIdx) :
    ((sessions.zipIdx.filter fun r => p r.1).any (·.2 == r.2)) = p r.1 := by
  rw [Bool.eq_iff_iff, List.any_eq_true]
  constructor
  · rintro ⟨r', hr', hplace⟩
    obtain ⟨hmem, hp⟩ := List.mem_filter.mp hr'
    have hplace : r'.2 = r.2 := by simpa using hplace
    have hget := List.mem_zipIdx_iff_getElem?.mp hmem
    rw [hplace, List.mem_zipIdx_iff_getElem?.mp hr] at hget
    rwa [Option.some.inj hget]
  · intro hp
    exact ⟨r, List.mem_filter.mpr ⟨hr, hp⟩, by simp⟩

theorem fullIdTier_eq :
    fullIdTier lower isAlive (lower.apply query) sessions =
      Tier.fullId.decision lower isAlive query sessions := by
  simp only [fullIdTier, Tier.decision, Tier.rows, shadows]
  by_cases hvalid : isValidId lower (lower.apply query) = true
  · have hmatches : Tier.fullId.Matches lower query = fun s => s.qdId == some (lower.apply query) := by
      funext s
      simp [Tier.Matches, hvalid]
    simp only [hvalid, if_true, hmatches]
    have hmatch := map_fst_filter_zipIdx (fun s => s.qdId == some (lower.apply query)) sessions 0
    have hempty : (sessions.zipIdx.filter fun r => r.1.qdId == some (lower.apply query)) = [] ↔
        (sessions.filter fun s => s.qdId == some (lower.apply query)) = [] := by
      rw [← hmatch, List.map_eq_nil_iff]
    have hshadow : ((sessions.zipIdx.filter fun r => named lower (lower.apply query) r.1 &&
        !(sessions.zipIdx.filter fun r => r.1.qdId == some (lower.apply query)).any (·.2 == r.2)).map
          Prod.fst) = sessions.filter fun s => named lower (lower.apply query) s &&
            !(s.qdId == some (lower.apply query)) := by
      rw [← map_fst_filter_zipIdx _ sessions 0]
      congr 1
      apply List.filter_congr
      intro r hr
      rw [any_place_iff (p := fun s => s.qdId == some (lower.apply query)) hr]
    by_cases hrows : (sessions.filter fun s => s.qdId == some (lower.apply query)) = []
    · simp only [hempty.mpr hrows, hrows]
      simp
    · have hne : (sessions.zipIdx.filter fun r => r.1.qdId == some (lower.apply query)).isEmpty =
          false := by
        rw [List.isEmpty_eq_false_iff]
        exact fun h => hrows (hempty.mp h)
      rw [hne]
      simp only [Bool.false_eq_true, if_false, List.map_append]
      rw [hshadow, hmatch]
      have hiff : (!(sessions.zipIdx.filter fun r => named lower (lower.apply query) r.1 &&
          !(sessions.zipIdx.filter fun r => r.1.qdId == some (lower.apply query)).any
            (·.2 == r.2)).isEmpty) = true ↔
          (sessions.filter fun s => named lower (lower.apply query) s &&
            !(s.qdId == some (lower.apply query))) ≠ [] := by
        rw [← hshadow]
        simp
      by_cases hsh : (sessions.filter fun s => named lower (lower.apply query) s &&
          !(s.qdId == some (lower.apply query))) = []
      · rw [if_neg (fun h => (hiff.mp h) hsh), if_neg (fun h => h.2 hsh)]
      · rw [if_pos (hiff.mpr hsh), if_pos ⟨hrows, hsh⟩]
  · have hfalse : isValidId lower (lower.apply query) = false := by simpa using hvalid
    have hmatches : Tier.fullId.Matches lower query = fun _ => false := by
      funext s
      simp [Tier.Matches, hfalse]
    simp [hfalse, hmatches, pick]

theorem pidTier_eq : pidTier query sessions = Tier.pid.decision lower isAlive query sessions := by
  have hmatches : Tier.pid.Matches lower query = fun s =>
      (parseIntPrefix query).any fun num => 0 < num && s.pid == some num := rfl
  simp only [pidTier, Tier.decision, Tier.rows, hmatches]
  cases parseIntPrefix query with
  | none => simp [pick]
  | some num =>
      by_cases hpos : 0 < num
      · simp [hpos]
      · simp [hpos, pick]

theorem idPrefixTier_eq :
    idPrefixTier lower (lower.apply query) sessions =
      Tier.idPrefix.decision lower isAlive query sessions := by
  have hmatches : Tier.idPrefix.Matches lower query = fun s =>
      decide (2 ≤ (lower.apply query).length ∧ isAlphabetPrefix lower (lower.apply query) = true) &&
        idStarts (lower.apply query) s := rfl
  simp only [idPrefixTier, Tier.decision, Tier.rows, hmatches]
  by_cases h : 2 ≤ (lower.apply query).length ∧ isAlphabetPrefix lower (lower.apply query) = true
  · simp only [if_pos h, decide_eq_true h, Bool.true_and]
  · simp only [if_neg h, decide_eq_false h, Bool.false_and]
    simp [pick]

theorem resolve_eq :
    resolveSessionWithLiveness lower isAlive query sessions =
      (Tier.all.findSome? (Tier.decision lower isAlive query sessions)).getD .none := by
  have hcons : ∀ (f : Tier → Option Resolution) (t : Tier) (rest : List Tier),
      (t :: rest).findSome? f = (f t <|> rest.findSome? f) := by
    intro f t rest
    rw [List.findSome?_cons]
    cases f t <;> rfl
  have hlast : ∀ r : Option Resolution, (r <|> none) = r := by
    intro r
    cases r <;> rfl
  have hpid := @pidTier_eq lower isAlive query sessions
  have hprefix := @idPrefixTier_eq lower isAlive query sessions
  simp only [resolveSessionWithLiveness, fullIdTier_eq, hpid, hprefix, Tier.all, hcons,
    List.findSome?_nil, hlast]
  rfl

/-! ### One row -/

/-- The row is the one bridge among matches that all carry its session id. -/
structure Original (rows : List Session) (s : Session) : Prop where
  bridge : rows.filter isAcp = [s]
  nonempty : s.sessionId ≠ ""
  same : ∀ m ∈ rows, m.sessionId = s.sessionId

theorem acpFloorOriginal_eq_some {rows : List Session} {s : Session} :
    acpFloorOriginal rows = some s ↔ Original rows s := by
  unfold acpFloorOriginal
  constructor
  · intro h
    split at h
    · rename_i original hbridge
      split at h
      · cases h
      · rename_i hempty
        split at h
        · rename_i hall
          cases h
          refine ⟨hbridge, by simpa using hempty, ?_⟩
          simpa using hall
        · cases h
    · cases h
  · rintro ⟨hbridge, hempty, hsame⟩
    have hempty' : s.sessionId.isEmpty = false := by simpa using hempty
    have hall : rows.all (·.sessionId == s.sessionId) = true := by simpa using hsame
    simp [hbridge, hempty', hall]

/-- Why a tier is for one row: it is the only match, the only live one of several with the full id
or the exact name, or the original of a bridge and its twin. -/
inductive Chosen (isAlive : Session → Bool) (t : Tier) (rows : List Session) (s : Session) : Prop
  | only : rows = [s] → Chosen isAlive t rows s
  | live : t = .fullId ∨ t = .exactName → rows.filter isAlive = [s] → Chosen isAlive t rows s
  | bridge : Original rows s → Chosen isAlive t rows s

/-- A tier that does not decide: it has no match, or several that have the exact name and are all
dead. -/
def PassedOver (isAlive : Session → Bool) (t : Tier) (rows : List Session) : Prop :=
  rows = [] ∨ t = .exactName ∧ 2 ≤ rows.length ∧ rows.filter isAlive = []

theorem Chosen.mem {t : Tier} {rows : List Session} {s : Session} (h : Chosen isAlive t rows s) :
    s ∈ rows := by
  cases h with
  | only h => rw [h]; exact List.mem_singleton_self s
  | live _ h =>
      have hmem : s ∈ rows.filter isAlive := by
        rw [h]
        exact List.mem_singleton_self s
      exact List.mem_of_mem_filter hmem
  | bridge h =>
      have hmem : s ∈ rows.filter isAcp := by
        rw [h.bridge]
        exact List.mem_singleton_self s
      exact List.mem_of_mem_filter hmem

theorem pick_cases (rows : List Session) (several : List Session → Option Resolution) :
    rows = [] ∧ pick rows several = none ∨
      (∃ s, rows = [s] ∧ pick rows several = some (.one s)) ∨
        2 ≤ rows.length ∧ pick rows several = several rows := by
  match rows with
  | [] => exact .inl ⟨rfl, rfl⟩
  | [s] => exact .inr (.inl ⟨s, rfl, rfl⟩)
  | s :: s' :: rest => exact .inr (.inr ⟨by simp, rfl⟩)

theorem refine_eq_one {rows : List Session} {s : Session}
    (h : refine isAlive rows = some (.one s)) : rows.filter isAlive = [s] := by
  unfold refine at h
  split at h
  · cases h
  · rename_i s' hlive
    cases h
    exact hlive
  · cases h

theorem refine_eq_none {rows : List Session} (h : refine isAlive rows = none) :
    rows.filter isAlive = [] := by
  unfold refine at h
  split at h
  · assumption
  · cases h
  · cases h

theorem floorOrMany_eq_one {rows : List Session} {s : Session}
    (h : floorOrMany rows = some (.one s)) : Original rows s := by
  unfold floorOrMany at h
  split at h
  · rename_i original horiginal
    cases h
    exact acpFloorOriginal_eq_some.mp horiginal
  · cases h

theorem Tier.chosen {t : Tier} {s : Session}
    (h : t.decision lower isAlive query sessions = some (.one s)) :
    Chosen isAlive t (t.rows lower query sessions) s := by
  have hpick : ∀ several, pick (t.rows lower query sessions) several = some (.one s) →
      (∀ rows, several rows = some (.one s) → Chosen isAlive t rows s) →
      Chosen isAlive t (t.rows lower query sessions) s := by
    intro several hp hseveral
    rcases pick_cases (t.rows lower query sessions) several with ⟨-, hnone⟩ | ⟨s', hrows, hone⟩ |
      ⟨-, hmany⟩
    · rw [hnone] at hp
      cases hp
    · rw [hone] at hp
      cases hp
      exact .only hrows
    · rw [hmany] at hp
      exact hseveral _ hp
  cases t with
  | fullId =>
      simp only [Tier.decision] at h
      split at h
      · cases h
      · apply hpick _ h
        intro rows hrows
        split at hrows
        · rename_i original horiginal
          cases hrows
          exact .bridge (acpFloorOriginal_eq_some.mp horiginal)
        · cases hrefine : refine isAlive rows with
          | none => rw [hrefine] at hrows; cases hrows
          | some r =>
              rw [hrefine] at hrows
              cases hrows
              exact .live (.inl rfl) (refine_eq_one hrefine)
  | exactName => exact hpick _ h fun rows hrows => .live (.inr rfl) (refine_eq_one hrows)
  | pid => exact hpick _ h fun rows hrows => by cases hrows
  | muxName => exact hpick _ h fun rows hrows => by cases hrows
  | namePrefix => exact hpick _ h fun rows hrows => .bridge (floorOrMany_eq_one hrows)
  | idPrefix => exact hpick _ h fun rows hrows => .bridge (floorOrMany_eq_one hrows)
  | uuidPrefix => exact hpick _ h fun rows hrows => .bridge (floorOrMany_eq_one hrows)

theorem floorOrMany_ne_none (rows : List Session) : floorOrMany rows ≠ none := by
  unfold floorOrMany
  split <;> exact Option.some_ne_none _

theorem Tier.passedOver {t : Tier} (h : t.decision lower isAlive query sessions = none) :
    PassedOver isAlive t (t.rows lower query sessions) := by
  have hpick : ∀ several, pick (t.rows lower query sessions) several = none →
      (∀ rows, several rows ≠ none) → t.rows lower query sessions = [] := by
    intro several hp hseveral
    rcases pick_cases (t.rows lower query sessions) several with ⟨hnil, -⟩ | ⟨s', -, hone⟩ |
      ⟨-, hmany⟩
    · exact hnil
    · rw [hone] at hp
      cases hp
    · rw [hmany] at hp
      exact absurd hp (hseveral _)
  cases t with
  | fullId =>
      simp only [Tier.decision] at h
      split at h
      · cases h
      · left
        apply hpick _ h
        intro rows
        split <;> exact Option.some_ne_none _
  | exactName =>
      rcases pick_cases (Tier.exactName.rows lower query sessions) (refine isAlive) with
        ⟨hnil, -⟩ | ⟨s', -, hone⟩ | ⟨hlen, hmany⟩
      · exact .inl hnil
      · rw [Tier.decision, hone] at h
        cases h
      · exact .inr ⟨rfl, hlen, refine_eq_none (hmany.symm.trans h)⟩
  | pid => exact .inl (hpick _ h fun rows => Option.some_ne_none _)
  | muxName => exact .inl (hpick _ h fun rows => Option.some_ne_none _)
  | namePrefix => exact .inl (hpick _ h floorOrMany_ne_none)
  | idPrefix => exact .inl (hpick _ h floorOrMany_ne_none)
  | uuidPrefix => exact .inl (hpick _ h floorOrMany_ne_none)

theorem resolve_one {s : Session}
    (h : resolveSessionWithLiveness lower isAlive query sessions = .one s) :
    ∃ earlier t later, Tier.all = earlier ++ t :: later ∧
      (∀ t' ∈ earlier, PassedOver isAlive t' (t'.rows lower query sessions)) ∧
        s ∈ t.rows lower query sessions ∧ Chosen isAlive t (t.rows lower query sessions) s := by
  rw [resolve_eq] at h
  cases hfind : Tier.all.findSome? (Tier.decision lower isAlive query sessions) with
  | none => rw [hfind] at h; cases h
  | some r =>
      rw [hfind] at h
      obtain rfl : r = .one s := h
      obtain ⟨earlier, t, later, hall, hdecision, hearlier⟩ := List.findSome?_eq_some_iff.mp hfind
      exact ⟨earlier, t, later, hall, fun t' ht' => Tier.passedOver (hearlier t' ht'),
        (Tier.chosen hdecision).mem, Tier.chosen hdecision⟩

end QuorumDispatch.Resolve
