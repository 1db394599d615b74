import Mathlib.Data.Bool.AllAny
import QuorumDispatch.Resolve.Unambiguous

/-!
The handles that the list of sessions shows: of every stable id the shortest prefix that no other
listed id has. Typed back, a handle finds its session, unless a name or a pid takes it first.
-/

namespace QuorumDispatch.Resolve

open Lib
open Sessions (Session)
open IdStore (Lowercase alphabet idLen isValidId)

/-! ### The displayed prefixes -/

/-- The first length at which the prefix belongs to one id only, tried from `len` on, `left` times;
the whole id when there is none. -/
def shortestFrom (ids : List String) (id : String) : Nat → Nat → String
  | 0, _ => id
  | left + 1, len =>
      let start := String.ofList (id.toList.take len)
      if (ids.filter fun o => startsWith o start).length = 1 then start
      else shortestFrom ids id left (len + 1)

/-- `for len in 2..chars.len()`. -/
def shortestUniquePrefixes (ids : List String) : List String :=
  ids.map fun id => shortestFrom ids id (id.length - 2) 2

def firstSeen : List String → List String → List String
  | _, [] => []
  | seen, id :: rest => if id ∈ seen then firstSeen seen rest else id :: firstSeen (id :: seen) rest

def prefixMap (sessions : List Session) : List (String × String) :=
  let ids := firstSeen [] (sessions.filterMap (·.qdId))
  ids.zip (shortestUniquePrefixes ids)

/-! ### Prefixes of distinct ids -/

structure WellFormedId (id : String) : Prop where
  length : id.toList.length = idLen
  alphabet : ∀ c ∈ id.toList, c ∈ alphabet

theorem wellFormedId_iff {id : String} :
    WellFormedId id ↔ id.toList.length = idLen ∧ ∀ c ∈ id.toList, c ∈ alphabet :=
  ⟨fun h => ⟨h.length, h.alphabet⟩, fun h => ⟨h.1, h.2⟩⟩

instance (id : String) : Decidable (WellFormedId id) :=
  decidable_of_iff (id.toList.length = idLen ∧ id.toList.all (alphabet.contains ·) = true) <| by
    simp only [wellFormedId_iff, List.all_eq_true, List.contains_iff_mem]

theorem firstSeen_eq {seen ids : List String} (hnodup : ids.Nodup) (hnew : ∀ id ∈ ids, id ∉ seen) :
    firstSeen seen ids = ids := by
  induction ids generalizing seen with
  | nil => rfl
  | cons id rest ih =>
      obtain ⟨hid, hrest⟩ := List.nodup_cons.mp hnodup
      rw [firstSeen, if_neg (hnew id List.mem_cons_self), ih hrest]
      intro o ho
      rw [List.mem_cons, not_or]
      exact ⟨fun heq => hid (heq ▸ ho), hnew o (List.mem_cons_of_mem _ ho)⟩

theorem startsWith_iff {text start : String} :
    startsWith text start = true ↔ start.toList <+: text.toList :=
  List.isPrefixOf_iff_prefix

section Handles

variable {ids : List String} {id : String}

/-- A handle: a prefix of the id, two characters at least, and of no other id. -/
structure Handle (ids : List String) (id handle : String) : Prop where
  length : 2 ≤ handle.toList.length
  isPrefix : handle.toList <+: id.toList
  unique : ∀ o ∈ ids, handle.toList <+: o.toList → o = id

theorem unique_of_length_eq_one {start : String} (hid : id ∈ ids) (hstart : startsWith id start = true)
    (h : (ids.filter fun o => startsWith o start).length = 1) :
    ∀ o ∈ ids, start.toList <+: o.toList → o = id := by
  intro o ho hbegins
  obtain ⟨x, hx⟩ := List.length_eq_one_iff.mp h
  have hmem : ∀ y ∈ ids, startsWith y start = true → y = x := by
    intro y hy hs
    have : y ∈ ids.filter fun o => startsWith o start := List.mem_filter.mpr ⟨hy, hs⟩
    rw [hx] at this
    exact List.mem_singleton.mp this
  rw [hmem o ho (startsWith_iff.mpr hbegins), hmem id hid hstart]

theorem shortestFrom_handle (hid : id ∈ ids) (hwell : ∀ o ∈ ids, WellFormedId o) {left len : Nat}
    (hlen : 2 ≤ len) (hleft : len + left = idLen) : Handle ids id (shortestFrom ids id left len) := by
  have hidlen := (hwell id hid).length
  induction left generalizing len with
  | zero =>
      refine ⟨?_, List.prefix_refl _, ?_⟩
      · rw [shortestFrom, hidlen]
        decide
      · -- the whole id is as long as every other one
        intro o ho hbegins
        apply String.toList_inj.mp
        exact (hbegins.eq_of_length (hidlen.trans (hwell o ho).length.symm)).symm
  | succ left ih =>
      have htake : (String.ofList (id.toList.take len)).toList = id.toList.take len :=
        String.toList_ofList
      simp only [shortestFrom]
      split
      · rename_i hone
        have hstart : startsWith id (String.ofList (id.toList.take len)) = true := by
          rw [startsWith_iff, htake]
          exact List.take_prefix _ _
        refine ⟨?_, startsWith_iff.mp hstart, unique_of_length_eq_one hid hstart hone⟩
        rw [htake, List.length_take]
        omega
      · exact ih (by omega) (by omega)

theorem shortestFrom_perm {ids' : List String} (h : ids.Perm ids') (left len : Nat) :
    shortestFrom ids id left len = shortestFrom ids' id left len := by
  induction left generalizing len with
  | zero => rfl
  | succ left ih =>
      simp only [shortestFrom, (h.filter _).length_eq, ih]

end Handles

/-! ### Typed back -/

section Typed

variable {lower : Lowercase} {isAlive : Session → Bool} {sessions : List Session} {s : Session}
  {id handle : String}

theorem lookup_zip_map (f : String → String) {ids : List String} (hid : id ∈ ids) :
    (ids.zip (ids.map f)).lookup id = some (f id) := by
  induction ids with
  | nil => cases hid
  | cons o rest ih =>
      rw [List.map_cons, List.zip_cons_cons, List.lookup_cons]
      split
      · rename_i heq
        rw [eq_of_beq heq]
      · rename_i hne
        rcases List.mem_cons.mp hid with rfl | hrest
        · simp at hne
        · exact ih hrest

theorem filter_eq_singleton {p : Session → Bool}
    (hnodup : (sessions.filterMap (·.qdId)).Nodup) (hs : s ∈ sessions) (hid : s.qdId = some id)
    (hp : ∀ t ∈ sessions, p t = true ↔ t.qdId = some id) : sessions.filter p = [s] := by
  have hkey : ∀ {t : Session} {rest : List Session}, t ∈ rest → t.qdId = some id →
      id ∈ rest.filterMap (·.qdId) := fun ht hq => List.mem_filterMap.mpr ⟨_, ht, hq⟩
  induction sessions with
  | nil => cases hs
  | cons t rest ih =>
      have hrest := fun x hx => hp x (List.mem_cons_of_mem _ hx)
      rcases List.mem_cons.mp hs with rfl | hmem
      · rw [List.filter_cons_of_pos ((hp s List.mem_cons_self).mpr hid)]
        congr 1
        apply List.filter_eq_nil_iff.mpr
        intro x hx hpx
        rw [List.filterMap_cons_some hid, List.nodup_cons] at hnodup
        exact hnodup.1 (hkey hx ((hrest x hx).mp hpx))
      · have hother : ¬ p t = true := by
          intro hpt
          rw [List.filterMap_cons_some ((hp t List.mem_cons_self).mp hpt), List.nodup_cons] at hnodup
          exact hnodup.1 (hkey hmem hid)
        rw [List.filter_cons_of_neg hother]
        refine ih ?_ hmem hrest
        cases hq : t.qdId with
        | none => rwa [List.filterMap_cons_none hq] at hnodup
        | some o => exact (List.nodup_cons.mp (List.filterMap_cons_some hq ▸ hnodup)).2

theorem Tier.decision_of_rows_nil {t : Tier} (h : t.rows lower handle sessions = []) :
    t.decision lower isAlive handle sessions = none := by
  cases t <;> simp [Tier.decision, h, pick]

theorem Tier.decision_of_rows_singleton {t : Tier} (h : t.rows lower handle sessions = [s])
    (hshadows : t = .fullId → shadows lower handle sessions = []) :
    t.decision lower isAlive handle sessions = some (.one s) := by
  cases t with
  | fullId => simp [Tier.decision, h, hshadows rfl, pick]
  | _ => simp [Tier.decision, h, pick]

/-- What lowercasing must leave alone: the letters of the ids. -/
def KeepsAlphabet (lower : Lowercase) : Prop :=
  ∀ t : String, (∀ c ∈ t.toList, c ∈ alphabet) → lower.apply t = t

theorem resolve_handle (hkeep : KeepsAlphabet lower)
    (hnodup : (sessions.filterMap (·.qdId)).Nodup)
    (hwell : ∀ o ∈ sessions.filterMap (·.qdId), WellFormedId o)
    (hs : s ∈ sessions) (hid : s.qdId = some id)
    (h : Handle (sessions.filterMap (·.qdId)) id handle)
    (hnames : ∀ t ∈ sessions, ∀ name, t.name = some name →
      startsWith (lower.apply name) handle = false)
    (hpids : ∀ t ∈ sessions, ∀ num, parseIntPrefix handle = some num → t.pid ≠ some num) :
    resolveSessionWithLiveness lower isAlive handle sessions = .one s := by
  have hlisted : id ∈ sessions.filterMap (·.qdId) := List.mem_filterMap.mpr ⟨s, hs, hid⟩
  have hletters : ∀ c ∈ handle.toList, c ∈ alphabet :=
    fun c hc => (hwell id hlisted).alphabet c (h.isPrefix.subset hc)
  have hlower : lower.apply handle = handle := hkeep handle hletters
  -- no name, whole or begun
  have hnamed : ∀ t ∈ sessions, named lower handle t = false := by
    intro t ht
    rw [← Bool.not_eq_true, named, beq_iff_eq]
    intro heq
    obtain ⟨name, hname, hfold⟩ := Option.map_eq_some_iff.mp heq
    have hstart : startsWith (lower.apply name) handle = true := by
      rw [startsWith_iff, hfold]
    rw [hnames t ht name hname] at hstart
    cases hstart
  have hstarts : ∀ t ∈ sessions, nameStarts lower handle t = false := by
    intro t ht
    cases hname : t.name with
    | none => simp [nameStarts, hname]
    | some name => simpa [nameStarts, hname] using hnames t ht name hname
  have hnil : ∀ t : Tier, (∀ x ∈ sessions, t.Matches lower handle x = false) →
      t.decision lower isAlive handle sessions = none := by
    intro t hno
    apply Tier.decision_of_rows_nil
    apply List.filter_eq_nil_iff.mpr
    intro x hx
    simp [hno x hx]
  have hpid : Tier.pid.decision lower isAlive handle sessions = none := by
    apply hnil
    intro t ht
    simp only [Tier.Matches]
    cases hnum : parseIntPrefix handle with
    | none => rfl
    | some num => simp [hpids t ht num hnum]
  have hexact : Tier.exactName.decision lower isAlive handle sessions = none := by
    apply hnil
    intro t ht
    simpa only [Tier.Matches, hlower] using hnamed t ht
  have hprefix : Tier.namePrefix.decision lower isAlive handle sessions = none := by
    apply hnil
    intro t ht
    simpa only [Tier.Matches, hlower] using hstarts t ht
  -- the prefix of one id only
  have hunique : ∀ t ∈ sessions, idStarts handle t = true ↔ t.qdId = some id := by
    intro t ht
    constructor
    · intro hstart
      cases ho : t.qdId with
      | none => simp [idStarts, ho] at hstart
      | some o =>
          have hpre : startsWith o handle = true := by simpa [idStarts, ho] using hstart
          rw [h.unique o (List.mem_filterMap.mpr ⟨t, ht, ho⟩) (startsWith_iff.mp hpre)]
    · intro hq
      simp [idStarts, hq, startsWith_iff.mpr h.isPrefix]
  have hidrows : Tier.idPrefix.rows lower handle sessions = [s] := by
    apply filter_eq_singleton hnodup hs hid
    intro t ht
    have htyped : 2 ≤ handle.length ∧ isAlphabetPrefix lower handle = true := by
      refine ⟨h.length, ?_⟩
      have hne : handle.isEmpty = false := by
        rw [← Bool.not_eq_true, String.isEmpty_iff]
        rintro rfl
        exact absurd h.length (by decide)
      rw [isAlphabetPrefix, hlower, hne, Bool.not_false, Bool.true_and, List.all_eq_true]
      exact fun c hc => List.contains_iff_mem.mpr (hletters c hc)
    simp only [Tier.Matches, hlower, decide_eq_true htyped, Bool.true_and]
    exact hunique t ht
  have hidprefix : Tier.idPrefix.decision lower isAlive handle sessions = some (.one s) :=
    Tier.decision_of_rows_singleton hidrows Tier.noConfusion
  rw [resolve_eq, Tier.all, List.findSome?_cons]
  by_cases hvalid : isValidId lower handle = true
  · -- a valid id is as long as the one it begins
    have hwhole : handle = id := by
      apply String.toList_inj.mp
      apply h.isPrefix.eq_of_length
      rw [(hwell id hlisted).length]
      simp only [isValidId, hlower, Bool.and_eq_true, beq_iff_eq] at hvalid
      exact hvalid.1
    have hrows : Tier.fullId.rows lower handle sessions = [s] := by
      apply filter_eq_singleton hnodup hs hid
      intro t _
      simp only [Tier.Matches, hlower, hvalid, Bool.true_and, beq_iff_eq]
      rw [hwhole]
    have hshadows : shadows lower handle sessions = [] := by
      apply List.filter_eq_nil_iff.mpr
      intro t ht
      simp [hlower, hnamed t ht]
    rw [Tier.decision_of_rows_singleton hrows fun _ => hshadows]
    rfl
  · have hfull : Tier.fullId.decision lower isAlive handle sessions = none := by
      apply hnil
      intro t _
      simp [Tier.Matches, hlower, hvalid]
    simp only [hfull, List.findSome?_cons, hpid, hexact, hprefix, hidprefix]
    rfl

/-- Displayed handles. An id's handle has two characters at least, begins that id and no other one,
and is the same whatever the order of the list; typed back it leads to the id's own session,
unless a name starts with it, in any case of letters, or its number is a listed pid. -/
theorem displayedHandle (lower : Lowercase) (isAlive : Session → Bool) (hkeep : KeepsAlphabet lower)
    {sessions : List Session} (hnodup : (sessions.filterMap (·.qdId)).Nodup)
    (hwell : ∀ o ∈ sessions.filterMap (·.qdId), WellFormedId o)
    {s : Session} {id : String} (hs : s ∈ sessions) (hid : s.qdId = some id) :
    ∃ handle, (prefixMap sessions).lookup id = some handle ∧
      Handle (sessions.filterMap (·.qdId)) id handle ∧
      (∀ sessions', sessions.Perm sessions' → (prefixMap sessions').lookup id = some handle) ∧
      ((∀ t ∈ sessions, ∀ name, t.name = some name →
          startsWith (lower.apply name) handle = false) →
        (∀ t ∈ sessions, ∀ num, parseIntPrefix handle = some num → t.pid ≠ some num) →
        resolveSessionWithLiveness lower isAlive handle sessions = .one s) := by
  have hlisted : id ∈ sessions.filterMap (·.qdId) := List.mem_filterMap.mpr ⟨s, hs, hid⟩
  have hlen : id.length - 2 = idLen - 2 := by
    rw [← String.length_toList, (hwell id hlisted).length]
  have hshown : ∀ sessions', sessions.Perm sessions' → (prefixMap sessions').lookup id =
      some (shortestFrom (sessions.filterMap (·.qdId)) id (id.length - 2) 2) := by
    intro sessions' hperm
    have hids := hperm.filterMap (·.qdId)
    rw [prefixMap, firstSeen_eq (hids.nodup_iff.mp hnodup) fun _ _ => List.not_mem_nil,
      shortestUniquePrefixes, lookup_zip_map _ (hids.mem_iff.mp hlisted), shortestFrom_perm hids]
  have hhandle : Handle (sessions.filterMap (·.qdId)) id
      (shortestFrom (sessions.filterMap (·.qdId)) id (id.length - 2) 2) := by
    rw [hlen]
    exact shortestFrom_handle hlisted hwell (by decide) (by decide)
  exact ⟨_, hshown sessions (List.Perm.refl _), hhandle, hshown,
    resolve_handle hkeep hnodup hwell hs hid hhandle⟩

end Typed

theorem keepsAlphabet_asciiLower : KeepsAlphabet asciiLower := by
  intro t ht
  have hchars : ∀ c ∈ alphabet, c.toLower = c :=
    List.all_iff_forall_prop.mp (by decide)
  have hmap : t.toList.map Char.toLower = t.toList := by
    rw [List.map_congr_left fun c hc => hchars c (ht c hc), List.map_id']
  have happly : asciiLower.apply t = String.ofList (t.toList.map Char.toLower) := rfl
  rw [happly, hmap, String.ofList_toList]

def idRow (id : String) (name : Option String) : Session :=
  { name, qdId := some id, status := .idle, provider := "claude-code", whichBranch := .liveRegistry }

/-- Two ids that share their first two characters need the third. -/
theorem displayedHandle_crowded :
    resolveSessionWithLiveness asciiLower (fun _ => true) "ab2"
      [idRow "ab222222" (some "zoe"), idRow "ab333333" none] =
        .one (idRow "ab222222" (some "zoe")) := by
  obtain ⟨handle, hshown, -, -, htyped⟩ := @displayedHandle asciiLower (fun _ => true)
    keepsAlphabet_asciiLower [idRow "ab222222" (some "zoe"), idRow "ab333333" none] (by decide)
    (by decide) (idRow "ab222222" (some "zoe")) "ab222222" List.mem_cons_self rfl
  obtain rfl : "ab2" = handle := by
    apply Option.some.inj
    rw [← hshown]
    decide
  have hnumber : parseIntPrefix "ab2" = none := by decide
  exact htyped (by decide) fun _ _ _ h => absurd (hnumber.symm.trans h) nofun

/-- Names are matched in any case of letters: another row's name takes the handle. -/
theorem displayedHandle_otherCase :
    ¬ ∀ (lower : Lowercase) (isAlive : Session → Bool), KeepsAlphabet lower →
      ∀ sessions : List Session, (sessions.filterMap (·.qdId)).Nodup →
        (∀ o ∈ sessions.filterMap (·.qdId), WellFormedId o) →
        ∀ (s : Session) (id handle : String), s ∈ sessions → s.qdId = some id →
          (prefixMap sessions).lookup id = some handle →
          (∀ t ∈ sessions, ∀ name, t.name = some name → startsWith name handle = false) →
          (∀ t ∈ sessions, ∀ num, parseIntPrefix handle = some num → t.pid ≠ some num) →
          resolveSessionWithLiveness lower isAlive handle sessions = .one s := by
  intro h
  have hnumber : parseIntPrefix "ab" = none := by decide
  have hother := h asciiLower (fun _ => true) keepsAlphabet_asciiLower
    [idRow "ab222222" none, idRow "cd333333" (some "ABLE")] (by decide) (by decide)
    (idRow "ab222222" none) "ab222222" "ab" List.mem_cons_self rfl (by decide)
    (by decide) fun _ _ _ h => absurd (hnumber.symm.trans h) nofun
  revert hother
  decide

end QuorumDispatch.Resolve
