import QuorumDispatch.Sessions.Merge

/-!
The session list and the order in which the registry was read. A live row without a pane of its
own process takes the pane of its name, unless an earlier row has it; so what is earlier matters
exactly where two rows want one pane.
-/

namespace QuorumDispatch.Sessions

open Lib

/-! ### Lists that are sorted and cut -/

section Cut

variable {α : Type} {key : α → Int} {l l' : List α}

theorem filter_take (hsorted : l.Pairwise fun a b => key b ≤ key a) {n : Nat} {last : α} {t : Int}
    (hlast : (l.take n).getLast? = some last) (ht : t ≠ key last) :
    (l.take n).filter (key · = t) = if key last < t then l.filter (key · = t) else [] := by
  obtain ⟨front, hfront⟩ := List.getLast?_eq_some_iff.mp hlast
  have hsplit := hsorted
  rw [← List.take_append_drop n l, List.pairwise_append] at hsplit
  obtain ⟨htake, -, hacross⟩ := hsplit
  split
  next hlater =>
    have hdrop : (l.drop n).filter (key · = t) = [] := by
      refine List.filter_eq_nil_iff.mpr fun b hb hkey => ?_
      have hle := hacross last (hfront ▸ List.mem_append_right _ (List.mem_singleton_self last)) b hb
      have hkey := of_decide_eq_true hkey
      omega
    conv_rhs => rw [← List.take_append_drop n l, List.filter_append, hdrop, List.append_nil]
  next hearlier =>
    refine List.filter_eq_nil_iff.mpr fun a ha hkey => ?_
    have hkey := of_decide_eq_true hkey
    rw [hfront, List.pairwise_append] at htake
    rw [hfront] at ha
    rcases List.mem_append.mp ha with ha | ha
    · have hle := htake.2.2 a ha last (List.mem_singleton_self last)
      omega
    · rw [List.mem_singleton.mp ha] at hkey
      exact ht hkey.symm

theorem map_key_eq (hperm : l.Perm l') (hsorted : l.Pairwise fun a b => key b ≤ key a)
    (hsorted' : l'.Pairwise fun a b => key b ≤ key a) : l.map key = l'.map key := by
  have hkeys : (l.map key).Pairwise (· ≥ ·) := List.pairwise_map.mpr hsorted
  have hkeys' : (l'.map key).Pairwise (· ≥ ·) := List.pairwise_map.mpr hsorted'
  exact List.Perm.eq_of_pairwise' hkeys hkeys' (hperm.map key)

end Cut

/-- Two lists differ at most in the order of rows of the same time; which of the rows of the time of
the last one are there when the list was cut is a matter of that order. -/
structure SameUpToTies (o o' : List Session × Nat) : Prop where
  dropped : o.2 = o'.2
  times : o.1.map Session.lastActive = o'.1.map Session.lastActive
  rows : ∀ t, (o.2 = 0 ∨ o.1.getLast?.map Session.lastActive ≠ some t) →
    (o.1.filter (·.lastActive = t)).Perm (o'.1.filter (·.lastActive = t))

theorem takeCap_sameUpToTies {l l' : List Session} (hperm : l.Perm l')
    (hsorted : l.Pairwise fun a b => b.lastActive ≤ a.lastActive)
    (hsorted' : l'.Pairwise fun a b => b.lastActive ≤ a.lastActive) (cap : Option Nat) :
    SameUpToTies (takeCap l cap) (takeCap l' cap) := by
  have htimes := map_key_eq hperm hsorted hsorted'
  cases cap with
  | none => exact ⟨rfl, htimes, fun t _ => hperm.filter _⟩
  | some n =>
      have htimes' : (l.take n).map Session.lastActive = (l'.take n).map Session.lastActive := by
        rw [List.map_take, htimes, ← List.map_take]
      refine ⟨?_, htimes', fun t ht => ?_⟩
      · change l.length - n = l'.length - n
        rw [hperm.length_eq]
      rcases ht with hall | hlast
      · have hlen : l.length ≤ n := Nat.le_of_sub_eq_zero hall
        change ((l.take n).filter _).Perm ((l'.take n).filter _)
        rw [List.take_of_length_le hlen, List.take_of_length_le (hperm.length_eq ▸ hlen)]
        exact hperm.filter _
      · change ((l.take n).filter _).Perm ((l'.take n).filter _)
        change (l.take n).getLast?.map Session.lastActive ≠ some t at hlast
        have hlast' : (l'.take n).getLast?.map Session.lastActive ≠ some t := by
          rwa [← List.getLast?_map, ← htimes', List.getLast?_map]
        have hsame : (l.take n).getLast?.map Session.lastActive =
            (l'.take n).getLast?.map Session.lastActive := by
          rw [← List.getLast?_map, htimes', List.getLast?_map]
        cases hend : (l.take n).getLast? with
        | none =>
            have hnil := List.getLast?_eq_none_iff.mp hend
            rw [hnil, List.map_nil] at htimes'
            rw [hnil, List.map_eq_nil_iff.mp htimes'.symm]
        | some last =>
            rw [hend] at hsame hlast
            obtain ⟨last', hend', hkey⟩ := Option.map_eq_some_iff.mp hsame.symm
            have ht : t ≠ last.lastActive := fun h => hlast (congrArg some h.symm)
            rw [filter_take hsorted hend ht, filter_take hsorted' hend' (hkey ▸ ht), hkey]
            split
            · exact hperm.filter _
            · exact List.Perm.refl _

/-! ### The registry -/

variable {inputs : JoinInputs} {opts : JoinOpts} {registry : List RegistryEntry}

def JoinInputs.withRegistry (inputs : JoinInputs) (registry : List RegistryEntry) : JoinInputs :=
  { inputs with registry }

def DistinctUpdates (registry : List RegistryEntry) : Prop :=
  ∀ k, ((registry.filter (dedupeKey · = k)).map updatedMs).Nodup

theorem newest_max {es : List RegistryEntry} {e : RegistryEntry} (he : newest es = some e) :
    ∀ x ∈ es, updatedMs x ≤ updatedMs e := by
  induction es using List.reverseRecOn generalizing e with
  | nil => cases he
  | append_singleton es y ih =>
      rw [newest, OrderedMap.reduce_snoc, Option.some.injEq] at he
      intro x hx
      rcases List.mem_append.mp hx with hx | hx
      · obtain ⟨old, hold⟩ := newest_isSome hx
        have hle := ih hold x hx
        rw [show OrderedMap.reduce newer es = some old from hold] at he
        change newer old y = e at he
        unfold newer at he
        split at he
        · subst he
          omega
        · subst he
          exact hle
      · rw [List.mem_singleton.mp hx]
        cases hold : OrderedMap.reduce newer es with
        | none =>
            rw [hold] at he
            exact le_of_eq (congrArg updatedMs he)
        | some old =>
            rw [hold] at he
            change newer old y = e at he
            unfold newer at he
            split at he
            · exact le_of_eq (congrArg updatedMs he)
            · subst he
              omega

theorem newest_iff {es : List RegistryEntry} (hdistinct : (es.map updatedMs).Nodup)
    {e : RegistryEntry} :
    newest es = some e ↔ e ∈ es ∧ ∀ x ∈ es, updatedMs x ≤ updatedMs e := by
  constructor
  · exact fun he => ⟨mem_of_newest he, newest_max he⟩
  · rintro ⟨he, hmax⟩
    obtain ⟨e', he'⟩ := newest_isSome he
    have hle := newest_max he' e he
    have hge := hmax e' (mem_of_newest he')
    rw [he', List.inj_on_of_nodup_map hdistinct (mem_of_newest he') he (le_antisymm hge hle)]

theorem newest_perm {es es' : List RegistryEntry} (hperm : es.Perm es')
    (hdistinct : (es.map updatedMs).Nodup) : newest es = newest es' := by
  have hdistinct' := (hperm.map updatedMs).nodup_iff.mp hdistinct
  refine Option.ext fun e => ?_
  rw [newest_iff hdistinct, newest_iff hdistinct', hperm.mem_iff]
  exact and_congr_right fun _ => forall_congr' fun x => by rw [hperm.mem_iff]

theorem dedupe_perm (hperm : registry.Perm inputs.registry)
    (hdistinct : DistinctUpdates inputs.registry) :
    (dedupe registry).Perm (dedupe inputs.registry) := by
  refine (List.perm_ext_iff_of_nodup (nodup_dedupe _) (nodup_dedupe _)).mpr fun e => ?_
  rw [mem_dedupe, mem_dedupe, newest_perm (hperm.symm.filter _) (hdistinct _)]

/-! ### Panes that two rows want -/

/-- Of live rows that differ, none falls back to the pane of its name that another one finds. -/
def Uncontended (inputs : JoinInputs) : Prop :=
  ∀ e ∈ dedupe inputs.registry, ∀ e' ∈ dedupe inputs.registry, ∀ z z', pidMatch inputs e = none →
    nameMatch inputs e = some z → zmxMatch inputs ∅ e' = some z' → z'.name = z.name →
    liveSession inputs e none = liveSession inputs e' none

variable {e e' x y : RegistryEntry}

/-- Rows that are the same without a pane are the same with one. -/
theorem liveSession_congr (h : liveSession inputs x none = liveSession inputs y none)
    (z : Option MuxSession) : liveSession inputs x z = liveSession inputs y z := by
  have hset : ∀ p, liveSession inputs p z =
      { liveSession inputs p none with
        zmxName := z.map (·.name), zmxClients := z.map (·.clients), socketDir := z.bind (·.socketDir) } :=
    fun _ => rfl
  rw [hset x, hset y, h]

theorem pidMatch_congr {z z' : Option MuxSession} (h : liveSession inputs x z = liveSession inputs y z') :
    pidMatch inputs x = pidMatch inputs y := by
  have hpid : x.pid = y.pid := congrArg Session.pid h
  rw [pidMatch, pidMatch, hpid]

theorem zmxMatch_empty {used : Finset String} {z : MuxSession}
    (hz : zmxMatch inputs used x = some z) : zmxMatch inputs ∅ x = some z := by
  unfold zmxMatch at hz ⊢
  cases hpid : pidMatch inputs x with
  | some z' => rwa [hpid] at hz
  | none =>
      rw [hpid] at hz
      rw [Option.none_or] at hz ⊢
      obtain ⟨hname, -⟩ := Option.filter_eq_some_iff.mp hz
      rw [hname]
      rfl

def Apart (inputs : JoinInputs) (x y : RegistryEntry) : Prop :=
  ∀ used, zmxMatch inputs (liveStep inputs used x).2 y = zmxMatch inputs used y

theorem apart_of_no_clash
    (h : ∀ z z', pidMatch inputs y = none → nameMatch inputs y = some z →
      zmxMatch inputs ∅ x = some z' → z'.name ≠ z.name) : Apart inputs x y := by
  intro used
  cases hpid : pidMatch inputs y with
  | some z => rw [zmxMatch, zmxMatch, hpid]; rfl
  | none =>
      rw [zmxMatch, zmxMatch, hpid, Option.none_or, Option.none_or]
      cases hname : nameMatch inputs y with
      | none => rfl
      | some z =>
          cases hx : zmxMatch inputs used x with
          | none => simp only [liveStep, hx, Option.elim_none]
          | some z' =>
              have hne := h z z' hpid hname (zmxMatch_empty hx)
              simp only [liveStep, hx, Option.elim_some, Option.filter_some, Finset.mem_insert,
                Ne.symm hne, false_or]

theorem commute_of_apart (hxy : Apart inputs x y) (hyx : Apart inputs y x) :
    Commute (liveStep inputs) x y := by
  intro used
  have hy := hxy used
  have hx := hyx used
  simp only [emitAll, liveStep] at hy hx ⊢
  rw [hy, hx]
  refine ⟨List.Perm.swap _ _ _, ?_⟩
  cases zmxMatch inputs used x with
  | none => rfl
  | some z =>
      cases zmxMatch inputs used y with
      | none => rfl
      | some z' => exact Finset.insert_comm _ _ _

theorem commute_of_twins (hx : pidMatch inputs x = none) (hy : pidMatch inputs y = none)
    (hname : nameMatch inputs x = nameMatch inputs y)
    (hrow : liveSession inputs x none = liveSession inputs y none) : Commute (liveStep inputs) x y := by
  intro used
  have hstep : ∀ used, liveStep inputs used x = liveStep inputs used y := by
    intro used
    have hmatch : zmxMatch inputs used x = zmxMatch inputs used y := by
      rw [zmxMatch, zmxMatch, hx, hy, hname]
    rw [liveStep, liveStep, hmatch, liveSession_congr hrow]
  have hall : emitAll (liveStep inputs) used [x, y] = emitAll (liveStep inputs) used [y, x] := by
    simp only [emitAll, hstep]
  rw [hall]
  exact ⟨List.Perm.refl _, rfl⟩

theorem commute_of_clash (hfree : Uncontended inputs) (hx : x ∈ dedupe inputs.registry)
    (hy : y ∈ dedupe inputs.registry) {z z' : MuxSession} (hpid : pidMatch inputs y = none)
    (hname : nameMatch inputs y = some z) (hmatch : zmxMatch inputs ∅ x = some z')
    (hsame : z'.name = z.name) : Commute (liveStep inputs) x y := by
  have hrow := hfree y hy x hx z z' hpid hname hmatch hsame
  have hpidx : pidMatch inputs x = none := (pidMatch_congr hrow).symm.trans hpid
  rw [zmxMatch, hpidx, Option.none_or] at hmatch
  have hnamex := (nameMatch_eq_some (Option.filter_eq_some_iff.mp hmatch).1).2
  have hnamey := (nameMatch_eq_some hname).2
  refine commute_of_twins hpidx hpid ?_ hrow.symm
  rw [nameMatch, nameMatch, hnamex, hnamey, hsame]

theorem commute_of_uncontended (hfree : Uncontended inputs) (hx : x ∈ dedupe inputs.registry)
    (hy : y ∈ dedupe inputs.registry) : Commute (liveStep inputs) x y := by
  by_cases hxy : ∃ z z', pidMatch inputs y = none ∧ nameMatch inputs y = some z ∧
      zmxMatch inputs ∅ x = some z' ∧ z'.name = z.name
  · obtain ⟨z, z', hpid, hname, hmatch, hsame⟩ := hxy
    exact commute_of_clash hfree hx hy hpid hname hmatch hsame
  by_cases hyx : ∃ z z', pidMatch inputs x = none ∧ nameMatch inputs x = some z ∧
      zmxMatch inputs ∅ y = some z' ∧ z'.name = z.name
  · obtain ⟨z, z', hpid, hname, hmatch, hsame⟩ := hyx
    exact (commute_of_clash hfree hy hx hpid hname hmatch hsame).symm
  · refine commute_of_apart (apart_of_no_clash fun z z' hpid hname hmatch hsame => ?_)
      (apart_of_no_clash fun z z' hpid hname hmatch hsame => ?_)
    · exact hxy ⟨z, z', hpid, hname, hmatch, hsame⟩
    · exact hyx ⟨z, z', hpid, hname, hmatch, hsame⟩

/-! ### The other rows -/

/-- The rows after the live ones: of them they need the panes and the ids. -/
def otherRows (inputs : JoinInputs) (opts : JoinOpts) (usedZmx : Finset String)
    (seen : Finset String) : List Session :=
  let unmatched := unmatchedZmx usedZmx inputs.zmxSessions
  let jsonl := keepFirst (·.sessionId) seen
    ((byMtime inputs.transcripts).filter (·.sessionId ∉ acpTombstoneSids inputs opts))
  let (cold, left) := emitAll (coldStep inputs) unmatched.get jsonl
  let seen := seenAfter (·.sessionId) seen jsonl
  let zmxOnly := unmatched.order.filterMap fun n => (left n).map zmxOnlySession
  let tombstoned := keepFirst entrySid seen (tombstones inputs opts)
  let seen := seenAfter entrySid seen tombstoned
  let codex := keepFirst (·.id) seen inputs.codexCold
  let seen := seenAfter (·.id) seen codex
  let pi := keepFirst (·.sessionId) seen inputs.piCold
  let seen := seenAfter (·.sessionId) seen pi
  let opencode := keepFirst (·.id) seen inputs.opencodeCold
  cold ++ (zmxOnly ++ (tombstoned.map (tombstonedSession inputs) ++ (codex.map codexSession ++
    (pi.map (piSession inputs) ++ opencode.map opencodeSession))))

theorem joinRows_eq (inputs : JoinInputs) (opts : JoinOpts) :
    joinRows inputs opts = (emitAll (liveStep inputs) ∅ (dedupe inputs.registry)).1 ++
      otherRows inputs opts (emitAll (liveStep inputs) ∅ (dedupe inputs.registry)).2
        (seenAfter entrySid ∅ (dedupe inputs.registry)) := by
  simp only [joinRows, List.append_assoc]
  rfl

theorem otherRows_branch {used seen : Finset String} {r : Session}
    (hr : r ∈ otherRows inputs opts used seen) : r.whichBranch ≠ .liveRegistry := by
  unfold otherRows at hr
  simp only [List.mem_append, List.mem_map, List.mem_filterMap, Option.map_eq_some_iff] at hr
  rcases hr with hcold | ⟨n, -, z, -, rfl⟩ | ⟨t, -, rfl⟩ | ⟨c, -, rfl⟩ | ⟨m, -, rfl⟩ | ⟨c, -, rfl⟩
  · obtain ⟨jf, -, hbranch⟩ := exists_of_forall₂_right
      (forall₂_emitAll (fun _ => True) (R := fun _ r => r.whichBranch = Kill.SessionBranch.coldJsonl)
        (fun _ _ _ => ⟨rfl, trivial⟩) _ trivial).1 hcold
    rw [hbranch]
    exact Kill.SessionBranch.noConfusion
  all_goals exact Kill.SessionBranch.noConfusion

theorem joinRows_perm (hperm : registry.Perm inputs.registry)
    (hdistinct : DistinctUpdates inputs.registry) (hfree : Uncontended inputs) :
    (joinRows (inputs.withRegistry registry) opts).Perm (joinRows inputs opts) := by
  have hkept := dedupe_perm hperm hdistinct
  have hcommute : ∀ x ∈ dedupe registry, ∀ y ∈ dedupe registry, Commute (liveStep inputs) x y :=
    fun x hx y hy => commute_of_uncontended hfree (hkept.subset hx) (hkept.subset hy)
  obtain ⟨hlive, hused⟩ := emitAll_perm hkept hcommute ∅
  have hseen : seenAfter entrySid ∅ (dedupe registry) = seenAfter entrySid ∅ (dedupe inputs.registry) := by
    ext sid
    rw [mem_seenAfter, mem_seenAfter]
    simp only [hkept.mem_iff]
  rw [joinRows_eq, joinRows_eq]
  change ((emitAll (liveStep inputs) ∅ (dedupe registry)).1 ++
    otherRows inputs opts (emitAll (liveStep inputs) ∅ (dedupe registry)).2
      (seenAfter entrySid ∅ (dedupe registry))).Perm _
  rw [hused, hseen]
  exact hlive.append_right _

/-! ### The list -/

theorem sortSessions_sorted (sessions : List Session) :
    (sortSessions sessions).Pairwise fun a b => b.lastActive ≤ a.lastActive :=
  haveI : Std.Total fun a b : Session => b.lastActive ≤ a.lastActive :=
    ⟨fun a b => le_total b.lastActive a.lastActive⟩
  haveI : IsTrans Session fun a b => b.lastActive ≤ a.lastActive :=
    ⟨fun _ _ _ hab hbc => le_trans hbc hab⟩
  List.pairwise_insertionSort _ sessions

theorem sameUpToTies_of_uncontended (hperm : registry.Perm inputs.registry)
    (hdistinct : DistinctUpdates inputs.registry) (hfree : Uncontended inputs) (opts : JoinOpts) :
    SameUpToTies (joinSessionsCounted (inputs.withRegistry registry) opts)
      (joinSessionsCounted inputs opts) := by
  have hrows : (joinRows (inputs.withRegistry registry) opts).Perm (joinRows inputs opts) :=
    joinRows_perm hperm hdistinct hfree
  refine takeCap_sameUpToTies ?_ ((sortSessions_sorted _).filter _) ((sortSessions_sorted _).filter _) _
  exact (((sortSessions_perm _).trans hrows).trans (sortSessions_perm _).symm).filter _

/-! ### Rows that want one pane -/

theorem liveSession_none_of_eq {z z' : Option MuxSession}
    (h : liveSession inputs x z = liveSession inputs y z') :
    liveSession inputs x none = liveSession inputs y none := by
  have hclear : ∀ p z, liveSession inputs p none =
      { liveSession inputs p z with zmxName := none, zmxClients := none, socketDir := none } :=
    fun _ _ => rfl
  rw [hclear x z, hclear y z', h]

theorem dedupe_head (he : e ∈ dedupe inputs.registry) (hdistinct : DistinctUpdates inputs.registry) :
    ∃ rest, dedupe (e :: inputs.registry.erase e) = e :: rest := by
  have hperm : (e :: inputs.registry.erase e).Perm inputs.registry :=
    (List.perm_cons_erase (registry_of_dedupe he)).symm
  have hkept := mem_dedupe.mp ((dedupe_perm hperm hdistinct).mem_iff.mpr he)
  obtain ⟨keys, hkeys⟩ : ∃ keys, (OrderedMap.collect dedupeKey newer
      (e :: inputs.registry.erase e)).order = dedupeKey e :: keys :=
    OrderedMap.order_collect_cons e (inputs.registry.erase e)
  refine ⟨keys.filterMap (OrderedMap.collect dedupeKey newer (e :: inputs.registry.erase e)).get, ?_⟩
  rw [dedupe, OrderedMap.values, hkeys, List.filterMap_cons, OrderedMap.get_collect]
  rw [show OrderedMap.reduce newer _ = some e from hkept]

/-- A row that is built once a pane is used does not get the pane by its name. -/
theorem makes_after {used : Finset String} {n : String} (hn : n ∈ used) (es : List RegistryEntry) :
    List.Forall₂ (fun p r => ∃ used, n ∈ used ∧ r = liveSession inputs p (zmxMatch inputs used p)) es
      (emitAll (liveStep inputs) used es).1 := by
  refine (forall₂_emitAll (fun used => n ∈ used) (fun used p hused => ?_) es hn).1
  refine ⟨⟨used, hused, rfl⟩, ?_⟩
  cases hz : zmxMatch inputs used p with
  | none => simpa only [liveStep, hz, Option.elim_none] using hused
  | some z => simpa only [liveStep, hz, Option.elim_some] using Finset.mem_insert_of_mem hused

variable {z z' : MuxSession}

theorem mem_joinRows_first (he : e ∈ dedupe inputs.registry)
    (hdistinct : DistinctUpdates inputs.registry) (hmatch : zmxMatch inputs ∅ e = some z) :
    liveSession inputs e (some z) ∈
      joinRows (inputs.withRegistry (e :: inputs.registry.erase e)) opts := by
  obtain ⟨rest, hrest⟩ := dedupe_head he hdistinct
  rw [joinRows_eq]
  refine List.mem_append_left _ ?_
  change _ ∈ (emitAll (liveStep inputs) ∅ (dedupe (e :: inputs.registry.erase e))).1
  rw [hrest, emitAll, liveStep, hmatch]
  exact List.mem_cons_self

/-- If another row that has the pane is read first, it does not. -/
theorem notMem_joinRows_second (he' : e' ∈ dedupe inputs.registry)
    (hdistinct : DistinctUpdates inputs.registry) (hpid : pidMatch inputs e = none)
    (hmatch : zmxMatch inputs ∅ e' = some z') (hsame : z'.name = z.name)
    (hdiffer : liveSession inputs e none ≠ liveSession inputs e' none) :
    liveSession inputs e (some z) ∉
      joinRows (inputs.withRegistry (e' :: inputs.registry.erase e')) opts := by
  intro hr
  obtain ⟨rest, hrest⟩ := dedupe_head he' hdistinct
  rw [joinRows_eq] at hr
  rcases List.mem_append.mp hr with hlive | hother
  · change _ ∈ (emitAll (liveStep inputs) ∅ (dedupe (e' :: inputs.registry.erase e'))).1 at hlive
    rw [hrest, emitAll] at hlive
    rcases List.mem_cons.mp hlive with hfirst | hlater
    · exact hdiffer (liveSession_none_of_eq hfirst)
    · have hused : z.name ∈ (liveStep inputs ∅ e').2 := by
        simp only [liveStep, hmatch, Option.elim_some, hsame]
        exact Finset.mem_insert_self _ _
      obtain ⟨p, -, used, hn, hrow⟩ := exists_of_forall₂_right (makes_after hused rest) hlater
      have hpid' := (pidMatch_congr hrow).symm.trans hpid
      have hzmx : (zmxMatch inputs used p).map (·.name) = some z.name :=
        (congrArg Session.zmxName hrow).symm
      rw [zmxMatch, hpid', Option.none_or] at hzmx
      obtain ⟨pane, hpane, hname⟩ := Option.map_eq_some_iff.mp hzmx
      have hfree := (Option.filter_eq_some_iff.mp hpane).2
      rw [decide_eq_true_eq, hname] at hfree
      exact hfree hn
  · exact otherRows_branch hother rfl

theorem SameUpToTies.mem {o o' : List Session × Nat} (h : SameUpToTies o o') (hall : o.2 = 0)
    {r : Session} (hr : r ∈ o.1) : r ∈ o'.1 := by
  have hfilter := h.rows r.lastActive (.inl hall)
  have hmem : r ∈ o.1.filter (·.lastActive = r.lastActive) :=
    List.mem_filter.mpr ⟨hr, decide_eq_true rfl⟩
  exact List.mem_of_mem_filter (hfilter.subset hmem)

theorem SameUpToTies.mem' {o o' : List Session × Nat} (h : SameUpToTies o o') (hall : o.2 = 0)
    {r : Session} (hr : r ∈ o'.1) : r ∈ o.1 := by
  have hfilter := h.rows r.lastActive (.inl hall)
  have hmem : r ∈ o'.1.filter (·.lastActive = r.lastActive) :=
    List.mem_filter.mpr ⟨hr, decide_eq_true rfl⟩
  exact List.mem_of_mem_filter (hfilter.symm.subset hmem)

/-- **The list does not depend on the order of the registry exactly if no two rows that differ want
one pane, of which one only by its name.** -/
theorem joinSessionsCounted_order_iff (hdistinct : DistinctUpdates inputs.registry) :
    (∀ registry : List RegistryEntry, registry.Perm inputs.registry → ∀ opts,
      SameUpToTies (joinSessionsCounted (inputs.withRegistry registry) opts)
        (joinSessionsCounted inputs opts)) ↔ Uncontended inputs := by
  constructor
  · intro hsame e he e' he' z z' hpid hname hmatch hpane
    by_contra hdiffer
    let opts : JoinOpts := { includeAll := true }
    have hcap : opts.cap = none := rfl
    have horder : ∀ y ∈ dedupe inputs.registry, SameUpToTies
        (joinSessionsCounted (inputs.withRegistry (y :: inputs.registry.erase y)) opts)
        (joinSessionsCounted inputs opts) := fun y hy =>
      hsame _ (List.perm_cons_erase (registry_of_dedupe hy)).symm opts
    have hall : ∀ registry, (joinSessionsCounted (inputs.withRegistry registry) opts).2 = 0 := fun _ => by
      rw [joinSessionsCounted_uncapped hcap]
    have hmem : ∀ registry r, r ∈ (joinSessionsCounted (inputs.withRegistry registry) opts).1 ↔
        r ∈ joinRows (inputs.withRegistry registry) opts := fun _ _ => by
      rw [joinSessionsCounted_uncapped hcap]
      exact (sortSessions_perm _).mem_iff
    have hmatche : zmxMatch inputs ∅ e = some z := by
      rw [zmxMatch, hpid, hname]
      rfl
    have hfirst := (hmem _ _).mpr (mem_joinRows_first he hdistinct hmatche)
    have hthere := (horder e' he').mem' (hall _) ((horder e he).mem (hall _) hfirst)
    exact notMem_joinRows_second he' hdistinct hpid hmatch hpane hdiffer ((hmem _ _).mp hthere)
  · intro hfree registry hperm opts
    exact sameUpToTies_of_uncontended hperm hdistinct hfree opts

/-- One entry finds the pane by its pid, and the other has its name. -/
def ownEntry : RegistryEntry where
  pid := some 5
  sessionId := some "a"
  updatedAt := some 2

def namesake : RegistryEntry where
  pid := some 6
  sessionId := some "b"
  name := some "x"
  updatedAt := some 1

def contendedInputs : JoinInputs where
  zmxSessions := [{ name := "x", pid := 5 }]
  registry := [ownEntry, namesake]
  matchLiveByName := true

theorem contendedInputs_distinct : DistinctUpdates contendedInputs.registry := by
  intro k
  by_cases hown : dedupeKey ownEntry = k
  · subst hown
    decide
  · by_cases hname : dedupeKey namesake = k
    · subst hname
      decide
    · simp [contendedInputs, hown, hname]

theorem joinSessionsCounted_order_contended :
    DistinctUpdates contendedInputs.registry ∧
      ((∀ registry : List RegistryEntry, registry.Perm contendedInputs.registry → ∀ opts,
        SameUpToTies (joinSessionsCounted (contendedInputs.withRegistry registry) opts)
          (joinSessionsCounted contendedInputs opts)) ↔ Uncontended contendedInputs) :=
  ⟨contendedInputs_distinct, joinSessionsCounted_order_iff contendedInputs_distinct⟩

/-- Read the other way round, both rows have the pane. -/
theorem contendedInputs_order :
    DistinctUpdates contendedInputs.registry ∧
      (contendedInputs.zmxSessions.map (·.pid)).Nodup ∧
      (contendedInputs.zmxSessions.map (·.name)).Nodup ∧
      [namesake, ownEntry].Perm contendedInputs.registry ∧
      ¬SameUpToTies
        (joinSessionsCounted (contendedInputs.withRegistry [namesake, ownEntry]) { includeAll := true })
        (joinSessionsCounted contendedInputs { includeAll := true }) := by
  refine ⟨contendedInputs_distinct, by decide, by decide, List.Perm.swap _ _ _, fun h => ?_⟩
  have hrow := h.rows 1 (.inl (by decide))
  exact absurd hrow (by decide)

end QuorumDispatch.Sessions
