import Mathlib.Data.List.Perm.Subperm
import QuorumDispatch.Resolve.Resolver

/-!
A query that could mean two sessions is refused. The result does not depend on the order of the
list; a single row is returned for one of the reasons of `Chosen`, and never past two live
namesakes or past a name that is another session's full id, except where a rule above names says
so: the number in front of the query is the pid of a row, or the matches of the full id are a
bridge and its twins.
-/

namespace QuorumDispatch.Resolve

open Lib
open Sessions (Session)
open IdStore (Lowercase isValidId)

variable {lower : Lowercase} {isAlive : Session → Bool} {query : String}
  {sessions sessions' : List Session}

/-! ### Order -/

inductive Resolution.Same : Resolution → Resolution → Prop
  | one (s : Session) : Same (.one s) (.one s)
  | many {rows rows' : List Session} (h : rows.Perm rows') : Same (.many rows) (.many rows')
  | none : Same .none .none

abbrev SameDecision : Option Resolution → Option Resolution → Prop := Option.Rel Resolution.Same

theorem pick_perm {rows rows' : List Session} {several : List Session → Option Resolution}
    (h : rows.Perm rows')
    (hseveral : ∀ {xs ys : List Session}, xs.Perm ys → SameDecision (several xs) (several ys)) :
    SameDecision (pick rows several) (pick rows' several) := by
  rcases pick_cases rows several with ⟨rfl, hnone⟩ | ⟨s, rfl, hone⟩ | ⟨hlen, hmany⟩
  · rw [List.nil_perm.mp h, hnone]
    exact .none
  · rw [← List.singleton_perm.mp h, hone]
    exact .some (.one s)
  · rcases pick_cases rows' several with ⟨rfl, -⟩ | ⟨s, rfl, -⟩ | ⟨-, hmany'⟩
    · rw [List.perm_nil.mp h] at hlen
      cases hlen
    · rw [List.perm_singleton.mp h, List.length_singleton] at hlen
      omega
    · rw [hmany, hmany']
      exact hseveral h

theorem refine_perm {xs ys : List Session} (h : xs.Perm ys) :
    SameDecision (refine isAlive xs) (refine isAlive ys) := by
  have hlive := h.filter isAlive
  have hpick : ∀ rows, refine isAlive rows = pick (rows.filter isAlive) (some ∘ .many) := by
    intro rows
    unfold refine
    generalize rows.filter isAlive = live
    match live with
    | [] => rfl
    | [_] => rfl
    | _ :: _ :: _ => rfl
  rw [hpick, hpick]
  exact pick_perm hlive fun hperm => .some (.many hperm)

theorem original_perm {xs ys : List Session} (h : xs.Perm ys) {s : Session} :
    Original xs s ↔ Original ys s := by
  constructor
  · rintro ⟨hbridge, hempty, hsame⟩
    refine ⟨?_, hempty, fun m hm => hsame m (h.mem_iff.mpr hm)⟩
    exact List.singleton_perm.mp (hbridge ▸ h.filter isAcp) |>.symm ▸ rfl
  · rintro ⟨hbridge, hempty, hsame⟩
    refine ⟨?_, hempty, fun m hm => hsame m (h.mem_iff.mp hm)⟩
    exact List.singleton_perm.mp (hbridge ▸ (h.filter isAcp).symm) |>.symm ▸ rfl

theorem acpFloorOriginal_perm {xs ys : List Session} (h : xs.Perm ys) :
    acpFloorOriginal xs = acpFloorOriginal ys := by
  apply Option.ext
  intro s
  rw [acpFloorOriginal_eq_some, acpFloorOriginal_eq_some]
  exact original_perm h

theorem floorOrMany_perm {xs ys : List Session} (h : xs.Perm ys) :
    SameDecision (floorOrMany xs) (floorOrMany ys) := by
  unfold floorOrMany
  rw [acpFloorOriginal_perm h]
  split
  · exact .some (.one _)
  · exact .some (.many h)

theorem Tier.decision_perm (h : sessions.Perm sessions') (t : Tier) :
    SameDecision (t.decision lower isAlive query sessions)
      (t.decision lower isAlive query sessions') := by
  have hrows : (t.rows lower query sessions).Perm (t.rows lower query sessions') := h.filter _
  have hmany : ∀ {xs ys : List Session}, xs.Perm ys →
      SameDecision ((some ∘ Resolution.many) xs) ((some ∘ Resolution.many) ys) :=
    fun hperm => .some (.many hperm)
  cases t with
  | fullId =>
      have hshadows : (shadows lower query sessions).Perm (shadows lower query sessions') :=
        h.filter _
      have hnil : ∀ {xs ys : List Session}, xs.Perm ys → (xs ≠ [] ↔ ys ≠ []) := by
        intro xs ys hperm
        rw [ne_eq, ne_eq, ← List.length_eq_zero_iff, ← List.length_eq_zero_iff, hperm.length_eq]
      simp only [Tier.decision, hnil hrows, hnil hshadows]
      split
      · exact .some (.many (hrows.append hshadows))
      · apply pick_perm hrows
        intro xs ys hperm
        rw [acpFloorOriginal_perm hperm]
        split
        · exact .some (.one _)
        · have hrefine := @refine_perm isAlive xs ys hperm
          generalize refine isAlive xs = r at hrefine
          generalize refine isAlive ys = r' at hrefine
          cases hrefine with
          | some hsame => exact .some hsame
          | none => exact .some (.many hperm)
  | exactName => exact pick_perm hrows refine_perm
  | pid => exact pick_perm hrows hmany
  | muxName => exact pick_perm hrows hmany
  | namePrefix => exact pick_perm hrows floorOrMany_perm
  | idPrefix => exact pick_perm hrows floorOrMany_perm
  | uuidPrefix => exact pick_perm hrows floorOrMany_perm

theorem resolve_perm (h : sessions.Perm sessions') :
    (resolveSessionWithLiveness lower isAlive query sessions).Same
      (resolveSessionWithLiveness lower isAlive query sessions') := by
  rw [resolve_eq, resolve_eq]
  have hfind : ∀ tiers : List Tier, SameDecision
      (tiers.findSome? (Tier.decision lower isAlive query sessions))
      (tiers.findSome? (Tier.decision lower isAlive query sessions')) := by
    intro tiers
    induction tiers with
    | nil => exact .none
    | cons t rest ih =>
        have ht := @Tier.decision_perm lower isAlive query _ _ h t
        rw [List.findSome?_cons, List.findSome?_cons]
        generalize t.decision lower isAlive query sessions = r at ht
        generalize t.decision lower isAlive query sessions' = r' at ht
        cases ht with
        | some hsame => exact .some hsame
        | none => exact ih
  have hall := hfind Tier.all
  generalize Tier.all.findSome? (Tier.decision lower isAlive query sessions) = r at hall
  generalize Tier.all.findSome? (Tier.decision lower isAlive query sessions') = r' at hall
  cases hall with
  | some hsame => exact hsame
  | none => exact .none

/-! ### Namesakes -/

theorem refine_ne_one {rows : List Session} (h : 2 ≤ (rows.filter isAlive).length) :
    ∃ live, refine isAlive rows = some (.many live) := by
  unfold refine
  split
  · rename_i hnil
    rw [hnil] at h
    cases h
  · rename_i s hone
    rw [hone, List.length_singleton] at h
    omega
  · exact ⟨_, rfl⟩

theorem resolve_namesakes {a b s : Session} (hrows : [a, b].Subperm sessions)
    (hnamed : named lower (lower.apply query) a = true ∧ named lower (lower.apply query) b = true)
    (hlive : isAlive a = true ∧ isAlive b = true)
    (h : resolveSessionWithLiveness lower isAlive query sessions = .one s) :
    Tier.pid.rows lower query sessions ≠ [] ∨ Original (Tier.fullId.rows lower query sessions) s := by
  by_cases hpid : Tier.pid.rows lower query sessions = []
  case neg => exact .inl hpid
  right
  have hmem : a ∈ sessions ∧ b ∈ sessions := ⟨hrows.subset (by simp), hrows.subset (by simp)⟩
  -- the two are among the matches and the live ones of a tier that both match
  have hpair : ∀ t : Tier, t.Matches lower query a = true → t.Matches lower query b = true →
      2 ≤ (t.rows lower query sessions).length ∧
        2 ≤ ((t.rows lower query sessions).filter isAlive).length := by
    intro t hta htb
    have hmatch : [a, b].Subperm (t.rows lower query sessions) := by
      have := hrows.filter (t.Matches lower query)
      simpa [Tier.rows, hta, htb] using this
    have halive : [a, b].Subperm ((t.rows lower query sessions).filter isAlive) := by
      have := hmatch.filter isAlive
      simpa [hlive.1, hlive.2] using this
    exact ⟨hmatch.length_le, halive.length_le⟩
  -- without a shadow the namesakes own the id themselves
  have hown : shadows lower query sessions = [] →
      2 ≤ (Tier.fullId.rows lower query sessions).length ∧
        2 ≤ ((Tier.fullId.rows lower query sessions).filter isAlive).length := by
    intro hnone
    have howner : ∀ x ∈ sessions, named lower (lower.apply query) x = true →
        Tier.fullId.Matches lower query x = true := by
      intro x hx hname
      by_contra hno
      have hmem : x ∈ shadows lower query sessions :=
        List.mem_filter.mpr ⟨hx, by simp [hname, hno]⟩
      rw [hnone] at hmem
      cases hmem
    exact hpair .fullId (howner a hmem.1 hnamed.1) (howner b hmem.2 hnamed.2)
  rw [resolve_eq, Tier.all, List.findSome?_cons] at h
  cases hfull : Tier.fullId.decision lower isAlive query sessions with
  | some r =>
      rw [hfull] at h
      obtain rfl : r = .one s := h
      simp only [Tier.decision] at hfull
      split at hfull
      · cases hfull
      · rename_i hshadow
        rcases pick_cases (Tier.fullId.rows lower query sessions) _ with ⟨-, hnone⟩ |
          ⟨s', hone, -⟩ | ⟨hlen, hmany⟩
        · rw [hnone] at hfull
          cases hfull
        · have hnone : shadows lower query sessions = [] := by
            by_contra hne
            exact hshadow ⟨by simp [hone], hne⟩
          have := (hown hnone).1
          rw [hone, List.length_singleton] at this
          omega
        · have hnone : shadows lower query sessions = [] := by
            by_contra hne
            refine hshadow ⟨?_, hne⟩
            intro hnil
            rw [hnil] at hlen
            cases hlen
          rw [hmany] at hfull
          split at hfull
          · rename_i original horiginal
            cases hfull
            exact acpFloorOriginal_eq_some.mp horiginal
          · obtain ⟨live, hlive'⟩ := refine_ne_one (hown hnone).2
            rw [hlive'] at hfull
            cases hfull
  | none =>
      have hpidnone : Tier.pid.decision lower isAlive query sessions = none := by
        simp only [Tier.decision, hpid]
        rfl
      have hname := hpair .exactName hnamed.1 hnamed.2
      obtain ⟨live, hlive'⟩ := refine_ne_one hname.2
      have hexact : Tier.exactName.decision lower isAlive query sessions = some (.many live) := by
        rcases pick_cases (Tier.exactName.rows lower query sessions) (refine isAlive) with
          ⟨hnil, -⟩ | ⟨s', hone, -⟩ | ⟨-, hmany⟩
        · rw [hnil] at hname
          exact absurd hname.1 (by decide)
        · rw [hone, List.length_singleton] at hname
          omega
        · exact hmany.trans hlive'
      rw [hfull] at h
      simp only [List.findSome?_cons, hpidnone, hexact] at h
      cases h

theorem resolve_shadowed {a b : Session} (ha : a ∈ sessions)
    (hid : Tier.fullId.Matches lower query a = true) (hb : b ∈ sessions)
    (hname : named lower (lower.apply query) b = true)
    (hother : Tier.fullId.Matches lower query b = false) (s : Session) :
    resolveSessionWithLiveness lower isAlive query sessions ≠ .one s := by
  have hrows : Tier.fullId.rows lower query sessions ≠ [] :=
    List.ne_nil_of_mem (List.mem_filter.mpr ⟨ha, hid⟩)
  have hshadows : shadows lower query sessions ≠ [] :=
    List.ne_nil_of_mem (List.mem_filter.mpr ⟨hb, by simp [hname, hother]⟩)
  have hfull : Tier.fullId.decision lower isAlive query sessions = some (.many
      (Tier.fullId.rows lower query sessions ++ shadows lower query sessions)) := by
    simp only [Tier.decision]
    rw [if_pos ⟨hrows, hshadows⟩]
  rw [resolve_eq, Tier.all, List.findSome?_cons, hfull]
  exact Resolution.noConfusion

/-! ### Resolution -/

/-- Session resolution. The rows do not depend on the order of the list; one row is returned by the
first tier that is not passed over, and for a reason; and it is returned past neither two live
namesakes nor a name that is another row's full id, but for the rules that stand above names. -/
theorem resolution (lower : Lowercase) (isAlive : Session → Bool) (query : String)
    (sessions : List Session) :
    (∀ sessions', sessions.Perm sessions' →
        (resolveSessionWithLiveness lower isAlive query sessions).Same
          (resolveSessionWithLiveness lower isAlive query sessions')) ∧
      (∀ s, resolveSessionWithLiveness lower isAlive query sessions = .one s →
        ∃ earlier t later, Tier.all = earlier ++ t :: later ∧
          (∀ t' ∈ earlier, PassedOver isAlive t' (t'.rows lower query sessions)) ∧
            s ∈ t.rows lower query sessions ∧ Chosen isAlive t (t.rows lower query sessions) s) ∧
      (∀ a b s, [a, b].Subperm sessions → named lower (lower.apply query) a = true →
        named lower (lower.apply query) b = true → isAlive a = true → isAlive b = true →
        resolveSessionWithLiveness lower isAlive query sessions = .one s →
        Tier.pid.rows lower query sessions ≠ [] ∨
          Original (Tier.fullId.rows lower query sessions) s) ∧
      ∀ a ∈ sessions, ∀ b ∈ sessions, Tier.fullId.Matches lower query a = true →
        named lower (lower.apply query) b = true → Tier.fullId.Matches lower query b = false →
        ∀ s, resolveSessionWithLiveness lower isAlive query sessions ≠ .one s :=
  ⟨fun _ h => resolve_perm h, fun _ h => resolve_one h,
    fun _ _ _ hrows ha hb hla hlb h => resolve_namesakes hrows ⟨ha, hb⟩ ⟨hla, hlb⟩ h,
    fun _ ha _ hb hid hname hother s => resolve_shadowed ha hid hb hname hother s⟩

def asciiLower : Lowercase := ⟨fun s => String.ofList (s.toList.map Char.toLower), by decide⟩

def liveRow (name : Option String) (pid : Option Int64) : Session :=
  { name, pid, status := .idle, provider := "claude-code", whichBranch := .liveRegistry }

/-- Two live namesakes alone are refused. -/
theorem resolution_namesakes (s : Session) :
    resolveSessionWithLiveness asciiLower (fun _ => true) "ann"
      [liveRow (some "Ann") none, liveRow (some "ann") (some 7)] ≠ .one s := by
  intro h
  have hcases := (resolution asciiLower (fun _ => true) "ann"
    [liveRow (some "Ann") none, liveRow (some "ann") (some 7)]).2.2.1 _ _ s (List.Subperm.refl _)
    (by decide) (by decide) rfl rfl h
  rcases hcases with hpid | horiginal
  · exact hpid (by decide)
  · have hmem := horiginal.bridge
    have hrows : Tier.fullId.rows asciiLower "ann"
        [liveRow (some "Ann") none, liveRow (some "ann") (some 7)] = [] := by decide
    rw [hrows] at hmem
    cases hmem

/-- The number of a name is tried as a pid before the name. -/
theorem resolution_numberedName :
    ¬ ∀ (lower : Lowercase) (isAlive : Session → Bool) (query : String) (sessions : List Session)
      (a b s : Session), [a, b].Subperm sessions → named lower (lower.apply query) a = true →
        named lower (lower.apply query) b = true → isAlive a = true → isAlive b = true →
        resolveSessionWithLiveness lower isAlive query sessions ≠ .one s := by
  intro h
  refine h asciiLower (fun _ => true) "2"
    [liveRow (some "2") (some 8), liveRow (some "2") (some 9), liveRow none (some 2)]
    (liveRow (some "2") (some 8)) (liveRow (some "2") (some 9)) (liveRow none (some 2)) ?_
    (by decide) (by decide) rfl rfl (by decide)
  exact List.Sublist.subperm (by simp)

end QuorumDispatch.Resolve
