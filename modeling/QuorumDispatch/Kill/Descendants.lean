import QuorumDispatch.Kill.Process

/-!
What the sweep below a session takes: every process down to the depth that is searched,
those below before those above, and none of them if the caller is one of them.

A process has one parent. So the processes on its way to the root are at the depths before
its own, and an order by depth is an order by descent.
-/

namespace QuorumDispatch.Kill

namespace ProcTable

variable {t : ProcTable} {root : Int32}

/-! ### Depths -/

inductive LevelsBelow (t : ProcTable) (root : Int32) : Nat → Int32 → Prop
  | root : LevelsBelow t root 0 root
  | child {n : Nat} {c p : Int32} (hchild : t.Child c p) (hp : LevelsBelow t root n p) :
      LevelsBelow t root (n + 1) c

def AtDepth (t : ProcTable) (root : Int32) (n : Nat) (c : Int32) : Prop :=
  t.LevelsBelow root n c ∧ ∀ m < n, ¬ t.LevelsBelow root m c

/-- The second process is on the way from the first one up to the root. -/
def AncestorBelow (t : ProcTable) (root : Int32) : Int32 → Int32 → Prop :=
  Relation.TransGen fun c p => t.Child c p ∧ p ≠ root

/-- What a sweep is for: all that is below the root, from below, and nothing at all where the
caller would be hit. -/
structure Sweeps (t : ProcTable) (root selfPid : Int32) (victims : List Int32) : Prop where
  nodup : victims.Nodup
  proper : root ∉ victims
  spares : selfPid = root ∨ Relation.TransGen t.Child selfPid root → victims = []
  mem : ¬ (selfPid = root ∨ Relation.TransGen t.Child selfPid root) →
    ∀ c, c ∈ victims ↔ c ≠ root ∧ ∃ n ≤ 32, t.LevelsBelow root n c
  order : ∀ c ∈ victims, ∀ a ∈ victims, t.AncestorBelow root c a →
    victims.idxOf c < victims.idxOf a

theorem Child.parent_unique {c p q : Int32} (hp : t.Child c p) (hq : t.Child c q) : p = q := by
  obtain ⟨row, hrow, -, -, -, rfl⟩ := hp
  obtain ⟨row', hrow', -, -, -, rfl⟩ := hq
  have hsame : (c, row) = (c, row') := List.inj_on_of_nodup_map t.unique hrow hrow' rfl
  rw [Prod.mk.injEq] at hsame
  rw [hsame.2]

theorem transGen_iff_levelsBelow {c : Int32} :
    Relation.TransGen t.Child c root ↔ ∃ n, t.LevelsBelow root (n + 1) c := by
  constructor
  · intro h
    induction h using Relation.TransGen.head_induction_on with
    | single hchild => exact ⟨0, .child hchild .root⟩
    | head hchild _ ih =>
        obtain ⟨n, hn⟩ := ih
        exact ⟨n + 1, .child hchild hn⟩
  · rintro ⟨n, hn⟩
    induction n generalizing c with
    | zero =>
        obtain _ | ⟨hchild, hp⟩ := hn
        cases hp
        exact .single hchild
    | succ n ih =>
        obtain _ | ⟨hchild, hp⟩ := hn
        exact .head hchild (ih hp)

@[simp] theorem levelsBelow_zero {c : Int32} : t.LevelsBelow root 0 c ↔ c = root := by
  constructor
  · intro h
    cases h
    rfl
  · rintro rfl
    exact .root

theorem LevelsBelow.atDepth {n : Nat} {c : Int32} (h : t.LevelsBelow root n c) :
    ∃ d ≤ n, t.AtDepth root d c := by
  induction n using Nat.strong_induction_on with
  | _ n ih =>
      by_cases hleast : ∀ m < n, ¬ t.LevelsBelow root m c
      · exact ⟨n, le_rfl, h, hleast⟩
      · push Not at hleast
        obtain ⟨m, hm, hbelow⟩ := hleast
        obtain ⟨d, hd, hat⟩ := ih m hm hbelow
        exact ⟨d, by omega, hat⟩

theorem AtDepth.unique {d e : Nat} {c : Int32} (hd : t.AtDepth root d c) (he : t.AtDepth root e c) :
    d = e := by
  rcases Nat.lt_trichotomy d e with h | h | h
  · exact absurd hd.1 (he.2 d h)
  · exact h
  · exact absurd he.1 (hd.2 e h)

@[simp] theorem atDepth_zero {c : Int32} : t.AtDepth root 0 c ↔ c = root := by
  rw [AtDepth, levelsBelow_zero]
  exact and_iff_left fun m hm => absurd hm (Nat.not_lt_zero m)

theorem atDepth_succ {n : Nat} {c : Int32} :
    t.AtDepth root (n + 1) c ↔
      (∃ p, t.Child c p ∧ t.AtDepth root n p) ∧ ∀ d ≤ n, ¬ t.AtDepth root d c := by
  constructor
  · rintro ⟨hbelow, hleast⟩
    refine ⟨?_, fun d hd hat => hleast d (Nat.lt_succ_of_le hd) hat.1⟩
    obtain _ | ⟨hchild, hp⟩ := hbelow
    refine ⟨_, hchild, hp, fun m hm hless => ?_⟩
    exact hleast (m + 1) (Nat.succ_lt_succ hm) (.child hchild hless)
  · rintro ⟨⟨p, hchild, hp⟩, hnew⟩
    refine ⟨.child hchild hp.1, fun m hm hless => ?_⟩
    obtain ⟨d, hd, hat⟩ := hless.atDepth
    exact hnew d (by omega) hat

theorem AtDepth.above {d : Nat} {c : Int32} (h : t.AtDepth root d c) {e : Nat} (he : e ≤ d) :
    ∃ a, t.AtDepth root e a := by
  induction d generalizing c with
  | zero => exact ⟨c, by rwa [Nat.le_zero.mp he]⟩
  | succ d ih =>
      rcases Nat.lt_or_eq_of_le he with hlt | rfl
      · obtain ⟨⟨p, _, hp⟩, _⟩ := atDepth_succ.mp h
        exact ih hp (Nat.lt_succ_iff.mp hlt)
      · exact ⟨c, h⟩

theorem atDepth_pos {d : Nat} {c : Int32} (h : t.AtDepth root d c) : 0 < d ↔ c ≠ root := by
  constructor
  · rintro hpos rfl
    exact h.2 0 hpos .root
  · intro hne
    exact Nat.pos_of_ne_zero fun hzero => hne (atDepth_zero.mp (hzero ▸ h))

/-- What is on the way up to the root was found before. -/
theorem AncestorBelow.depth {c a : Int32} (h : t.AncestorBelow root c a) {d : Nat}
    (hd : t.AtDepth root d c) (hpos : 0 < d) : ∃ e < d, 0 < e ∧ t.AtDepth root e a := by
  have hstep : ∀ {c p : Int32} {d : Nat}, t.Child c p ∧ p ≠ root → t.AtDepth root d c → 0 < d →
      ∃ e < d, 0 < e ∧ t.AtDepth root e p := by
    rintro c p d ⟨hchild, hne⟩ hd hpos
    obtain ⟨n, rfl⟩ : ∃ n, d = n + 1 := ⟨d - 1, by omega⟩
    obtain ⟨⟨q, hq, hn⟩, _⟩ := atDepth_succ.mp hd
    obtain rfl := hchild.parent_unique hq
    exact ⟨n, Nat.lt_succ_self n, (atDepth_pos hn).mpr hne, hn⟩
  induction h with
  | single h => exact hstep h hd hpos
  | tail _ h ih =>
      obtain ⟨e, he, hepos, hat⟩ := ih
      obtain ⟨k, hk, hkpos, hat'⟩ := hstep h hat hepos
      exact ⟨k, by omega, hkpos, hat'⟩

/-! ### The search -/

theorem mem_children_iff {c p : Int32} : c ∈ t.children p ↔ t.Child c p := by
  refine ⟨child_of_mem_children, ?_⟩
  rintro ⟨row, hmem, hcond⟩
  exact List.mem_filterMap.mpr ⟨(c, row), hmem, if_pos hcond⟩

section Visit

variable (s : Search) (depth : Nat) (c d : Int32)

@[simp] theorem Search.mem_seen_visit : d ∈ (s.visit depth c).seen ↔ d ∈ s.seen ∨ d = c := by
  unfold Search.visit
  split
  next hseen =>
    refine ⟨.inl, fun h => h.elim id ?_⟩
    rintro rfl
    exact hseen
  next => rw [List.mem_cons, or_comm]

@[simp] theorem Search.mem_next_visit :
    d ∈ (s.visit depth c).next ↔ d ∈ s.next ∨ d = c ∧ d ∉ s.seen := by
  unfold Search.visit
  split
  next hseen =>
    refine ⟨.inl, fun h => h.elim id ?_⟩
    rintro ⟨rfl, hnot⟩
    exact absurd hseen hnot
  next hnew =>
    rw [List.mem_append, List.mem_singleton]
    refine or_congr_right ⟨?_, And.left⟩
    rintro rfl
    exact ⟨rfl, hnew⟩

@[simp] theorem Search.mem_ordered_visit (e : Nat) :
    (e, d) ∈ (s.visit depth c).ordered ↔ (e, d) ∈ s.ordered ∨ e = depth ∧ d = c ∧ d ∉ s.seen := by
  unfold Search.visit
  split
  next hseen =>
    refine ⟨.inl, fun h => h.elim id ?_⟩
    rintro ⟨-, rfl, hnot⟩
    exact absurd hseen hnot
  next hnew =>
    rw [List.mem_append, List.mem_singleton, Prod.mk.injEq]
    refine or_congr_right (and_congr_right fun _ => ⟨?_, And.left⟩)
    rintro rfl
    exact ⟨rfl, hnew⟩

end Visit

theorem new_or {a b seen : Prop} : a ∧ ¬ seen ∨ b ∧ ¬ (seen ∨ a) ↔ (a ∨ b) ∧ ¬ seen := by
  constructor
  · rintro (⟨ha, hnew⟩ | ⟨hb, hnew⟩)
    · exact ⟨.inl ha, hnew⟩
    · exact ⟨.inr hb, fun h => hnew (.inl h)⟩
  · rintro ⟨ha | hb, hnew⟩
    · exact .inl ⟨ha, hnew⟩
    · by_cases ha : a
      · exact .inl ⟨ha, hnew⟩
      · exact .inr ⟨hb, fun h => h.elim hnew ha⟩

/-- A level takes what is new among the children, whatever their order. -/
theorem Search.foldl_visit (depth : Nat) (cs : List Int32) (s : Search) (d : Int32) :
    (d ∈ (cs.foldl (Search.visit depth) s).seen ↔ d ∈ s.seen ∨ d ∈ cs) ∧
      (d ∈ (cs.foldl (Search.visit depth) s).next ↔ d ∈ s.next ∨ d ∈ cs ∧ d ∉ s.seen) ∧
      ∀ e, (e, d) ∈ (cs.foldl (Search.visit depth) s).ordered ↔
        (e, d) ∈ s.ordered ∨ e = depth ∧ d ∈ cs ∧ d ∉ s.seen := by
  induction cs generalizing s with
  | nil => simp
  | cons c cs ih =>
      obtain ⟨hseen, hnext, hordered⟩ := ih (s.visit depth c)
      rw [List.foldl_cons]
      refine ⟨?_, ?_, fun e => ?_⟩
      · rw [hseen, Search.mem_seen_visit, List.mem_cons, or_assoc]
      · rw [hnext, Search.mem_next_visit, Search.mem_seen_visit, List.mem_cons,
          or_assoc, new_or]
      · rw [hordered, Search.mem_ordered_visit, Search.mem_seen_visit, List.mem_cons,
          or_assoc, ← and_or_left, new_or]

/-- The search has come to a depth: it holds the processes down to there, by their depths. -/
structure Search.Complete (t : ProcTable) (root : Int32) (k : Nat) (s : Search) : Prop where
  seen : ∀ c, c ∈ s.seen ↔ ∃ d ≤ k, t.AtDepth root d c
  next : ∀ c, c ∈ s.next ↔ t.AtDepth root k c
  ordered : ∀ d c, (d, c) ∈ s.ordered ↔ 0 < d ∧ d ≤ k ∧ t.AtDepth root d c

theorem Search.Complete.start : ({ seen := [root], next := [root] } : Search).Complete t root 0 := by
  refine ⟨fun c => ?_, fun c => ?_, fun d c => ?_⟩
  · simp
  · simp
  · simp only [List.not_mem_nil, false_iff]
    omega

theorem Search.Complete.level {k : Nat} {s : Search} (h : s.Complete t root k) :
    (s.level t (k + 1)).Complete t root (k + 1) := by
  have hnew : ∀ c, (c ∈ s.next.flatMap t.children ∧ c ∉ s.seen) ↔ t.AtDepth root (k + 1) c := by
    intro c
    simp only [List.mem_flatMap, mem_children_iff, h.next, h.seen, atDepth_succ, not_exists, not_and]
    exact and_congr_left fun _ => ⟨fun ⟨p, hp, hc⟩ => ⟨p, hc, hp⟩, fun ⟨p, hc, hp⟩ => ⟨p, hp, hc⟩⟩
  have hspec := fun c => Search.foldl_visit (k + 1) (s.next.flatMap t.children) { s with next := [] } c
  refine ⟨fun c => ?_, fun c => ?_, fun d c => ?_⟩
  · rw [Search.level, (hspec c).1]
    constructor
    · rintro (hc | hc)
      · obtain ⟨d, hd, hat⟩ := (h.seen c).mp hc
        exact ⟨d, by omega, hat⟩
      · by_cases hseen : c ∈ s.seen
        · obtain ⟨d, hd, hat⟩ := (h.seen c).mp hseen
          exact ⟨d, by omega, hat⟩
        · exact ⟨k + 1, le_rfl, (hnew c).mp ⟨hc, hseen⟩⟩
    · rintro ⟨d, hd, hat⟩
      rcases Nat.lt_or_eq_of_le hd with hlt | rfl
      · exact .inl ((h.seen c).mpr ⟨d, by omega, hat⟩)
      · exact .inr ((hnew c).mpr hat).1
  · rw [Search.level, (hspec c).2.1, ← hnew c]
    simp
  · rw [Search.level, (hspec c).2.2 d, h.ordered, hnew c]
    constructor
    · rintro (⟨hpos, hd, hat⟩ | ⟨rfl, hat⟩)
      · exact ⟨hpos, by omega, hat⟩
      · exact ⟨by omega, le_rfl, hat⟩
    · rintro ⟨hpos, hd, hat⟩
      rcases Nat.lt_or_eq_of_le hd with hlt | rfl
      · exact .inl ⟨hpos, by omega, hat⟩
      · exact .inr ⟨rfl, hat⟩

theorem Search.Complete.stopped {k : Nat} {s : Search} (h : s.Complete t root k) (hnil : s.next = [])
    {n : Nat} (hn : k ≤ n) : s.Complete t root n := by
  have hnone : ∀ d, k ≤ d → ∀ c, ¬ t.AtDepth root d c := by
    intro d hd c hat
    obtain ⟨a, ha⟩ := hat.above hd
    exact List.not_mem_nil (hnil ▸ (h.next a).mpr ha)
  refine ⟨fun c => ?_, fun c => ?_, fun d c => ?_⟩
  · rw [h.seen]
    refine ⟨fun ⟨d, hd, hat⟩ => ⟨d, by omega, hat⟩, fun ⟨d, hd, hat⟩ => ⟨d, ?_, hat⟩⟩
    by_contra hlt
    exact hnone d (by omega) c hat
  · rw [hnil]
    exact ⟨fun hc => absurd hc List.not_mem_nil, fun hat => absurd hat (hnone n hn c)⟩
  · rw [h.ordered]
    refine and_congr_right fun _ => ⟨fun ⟨hd, hat⟩ => ⟨by omega, hat⟩, fun ⟨hd, hat⟩ => ⟨?_, hat⟩⟩
    by_contra hlt
    exact hnone d (by omega) c hat

theorem Search.Complete.run {k : Nat} {s : Search} (h : s.Complete t root k) (n : Nat) :
    (Search.run t n k s).Complete t root (k + n) := by
  induction n generalizing s k with
  | zero => exact h
  | succ n ih =>
      rw [Search.run]
      split
      next hnil => exact h.stopped hnil (Nat.le_add_right k (n + 1))
      next =>
        have hrun := ih h.level
        rwa [Nat.add_right_comm] at hrun

/-! ### The sweep -/

theorem within_iff_atDepth {k : Nat} {c : Int32} :
    (∃ d, 0 < d ∧ d ≤ k ∧ t.AtDepth root d c) ↔ c ≠ root ∧ ∃ n ≤ k, t.LevelsBelow root n c := by
  constructor
  · rintro ⟨d, hpos, hd, hat⟩
    exact ⟨(atDepth_pos hat).mp hpos, d, hd, hat.1⟩
  · rintro ⟨hne, n, hn, hbelow⟩
    obtain ⟨d, hd, hat⟩ := hbelow.atDepth
    exact ⟨d, (atDepth_pos hat).mpr hne, by omega, hat⟩

theorem sweepOrder_trans (a b c : Nat × Int32) (hab : sweepOrder a b) (hbc : sweepOrder b c) :
    sweepOrder a c := by
  simp only [sweepOrder, Bool.or_eq_true, Bool.and_eq_true, decide_eq_true_eq, beq_iff_eq] at *
  rcases hab with hab | ⟨hab, hle⟩ <;> rcases hbc with hbc | ⟨hbc, hle'⟩
  · exact .inl (by omega)
  · exact .inl (by omega)
  · exact .inl (by omega)
  · exact .inr ⟨hab.trans hbc, Int32.le_trans hle hle'⟩

theorem sweepOrder_total (a b : Nat × Int32) : (sweepOrder a b || sweepOrder b a) = true := by
  simp only [sweepOrder, Bool.or_eq_true, Bool.and_eq_true, decide_eq_true_eq, beq_iff_eq]
  rcases Nat.lt_trichotomy a.1 b.1 with h | h | h
  · exact .inr (.inl h)
  · rcases Int32.le_total a.2 b.2 with hle | hle
    · exact .inl (.inr ⟨h, hle⟩)
    · exact .inr (.inr ⟨h.symm, hle⟩)
  · exact .inl (.inl h)

theorem descendantKillList_cases (root selfPid : Int32) (t : ProcTable) :
    root ≤ 0 ∧ descendantKillList root selfPid t = [] ∨
      0 < root ∧ ∃ s : Search, s.Complete t root 32 ∧
        descendantKillList root selfPid t =
          if root = selfPid ∨ s.ordered.any (·.2 = selfPid) then []
          else (s.ordered.mergeSort sweepOrder).map Prod.snd := by
  by_cases hpos : root ≤ 0
  · exact .inl ⟨hpos, if_pos hpos⟩
  · exact .inr ⟨Int32.not_le.mp hpos, _, Search.Complete.start.run 32, if_neg hpos⟩

/-- The caller is seen down to the depth of the search. -/
theorem Search.Complete.any_iff {s : Search} (h : s.Complete t root 32) (selfPid : Int32) :
    s.ordered.any (·.2 = selfPid) = true ↔
      selfPid ≠ root ∧ ∃ n ≤ 32, t.LevelsBelow root n selfPid := by
  rw [← within_iff_atDepth, List.any_eq_true]
  constructor
  · rintro ⟨⟨d, c⟩, hmem, hself⟩
    obtain rfl : c = selfPid := of_decide_eq_true hself
    exact ⟨d, (h.ordered d c).mp hmem⟩
  · rintro ⟨d, hat⟩
    exact ⟨(d, selfPid), (h.ordered d selfPid).mpr hat, decide_eq_true rfl⟩

theorem Search.Complete.mem_sweep {s : Search} (h : s.Complete t root 32) (c : Int32) :
    c ∈ (s.ordered.mergeSort sweepOrder).map Prod.snd ↔
      c ≠ root ∧ ∃ n ≤ 32, t.LevelsBelow root n c := by
  rw [← within_iff_atDepth, ((List.mergeSort_perm s.ordered sweepOrder).map Prod.snd).mem_iff,
    List.mem_map]
  constructor
  · rintro ⟨⟨d, _⟩, hmem, rfl⟩
    exact ⟨d, (h.ordered d _).mp hmem⟩
  · rintro ⟨d, hat⟩
    exact ⟨(d, c), (h.ordered d c).mpr hat, rfl⟩

theorem Search.Complete.idxOf_lt {s : Search} (h : s.Complete t root 32) {c a : Int32}
    (hc : c ∈ (s.ordered.mergeSort sweepOrder).map Prod.snd)
    (ha : a ∈ (s.ordered.mergeSort sweepOrder).map Prod.snd) (habove : t.AncestorBelow root c a) :
    ((s.ordered.mergeSort sweepOrder).map Prod.snd).idxOf c <
      ((s.ordered.mergeSort sweepOrder).map Prod.snd).idxOf a := by
  obtain ⟨d, hpos, -, hd⟩ := within_iff_atDepth.mpr ((h.mem_sweep c).mp hc)
  obtain ⟨e, hlt, -, he⟩ := habove.depth hd hpos
  -- the depths do not grow along the list
  have hsorted : ((s.ordered.mergeSort sweepOrder).map Prod.snd).Pairwise fun x y =>
      ∀ k m, t.AtDepth root k x → t.AtDepth root m y → m ≤ k := by
    rw [List.pairwise_map]
    refine (List.pairwise_mergeSort sweepOrder_trans sweepOrder_total s.ordered).imp_of_mem ?_
    rintro ⟨k, x⟩ ⟨m, y⟩ hx hy hle k' m' hk' hm'
    rw [List.mem_mergeSort] at hx hy
    obtain rfl := hk'.unique ((h.ordered k x).mp hx).2.2
    obtain rfl := hm'.unique ((h.ordered m y).mp hy).2.2
    simp only [sweepOrder, Bool.or_eq_true, Bool.and_eq_true, decide_eq_true_eq, beq_iff_eq] at hle
    omega
  generalize (s.ordered.mergeSort sweepOrder).map Prod.snd = l at hc ha hsorted
  have hci := List.idxOf_lt_length_iff.mpr hc
  have hai := List.idxOf_lt_length_iff.mpr ha
  by_contra hle
  rcases Nat.lt_or_eq_of_le (Nat.le_of_not_lt hle) with hbefore | hsame
  · have hrel := List.pairwise_iff_getElem.mp hsorted _ _ hai hci hbefore
    rw [List.getElem_idxOf, List.getElem_idxOf] at hrel
    have := hrel e d he hd
    omega
  · have heq : a = c := by
      rw [← List.getElem_idxOf hai, ← List.getElem_idxOf hci]
      simp only [hsame]
    exact absurd (he.unique (heq ▸ hd)) (by omega)

/-- **The sweep is right** exactly if the caller is not below the depth that is searched. -/
theorem descendantKillList_sweeps (root selfPid : Int32) (t : ProcTable) :
    t.Sweeps root selfPid (descendantKillList root selfPid t) ↔
      (Relation.TransGen t.Child selfPid root →
        selfPid = root ∨ ∃ n ≤ 32, t.LevelsBelow root n selfPid) := by
  obtain ⟨hnodup, hproper⟩ := descendantKillList_spec root selfPid t
  have hroot : root ∉ descendantKillList root selfPid t := fun hmem => (hproper root hmem).1 rfl
  rcases descendantKillList_cases root selfPid t with ⟨hneg, hnil⟩ | ⟨hpos, s, hs, heq⟩
  · -- no process has such a parent
    have hnone : ∀ n c, ¬ t.LevelsBelow root (n + 1) c := by
      intro n
      induction n with
      | zero =>
          rintro c (_ | ⟨⟨row, -, -, hppid, -, rfl⟩, hp⟩)
          cases hp
          exact absurd hneg (Int32.not_le.mpr hppid)
      | succ n ih =>
          rintro c (_ | ⟨-, hp⟩)
          exact ih _ hp
    have hself : ¬ Relation.TransGen t.Child selfPid root := by
      rw [transGen_iff_levelsBelow]
      rintro ⟨n, hn⟩
      exact hnone n selfPid hn
    refine iff_of_true ⟨hnodup, hroot, fun _ => hnil, fun _ c => ?_, ?_⟩ fun h => absurd h hself
    · rw [hnil]
      refine iff_of_false List.not_mem_nil ?_
      rintro ⟨hne, n, -, hn⟩
      cases n with
      | zero => exact hne (levelsBelow_zero.mp hn)
      | succ n => exact hnone n c hn
    · rw [hnil]
      exact fun c hc => absurd hc List.not_mem_nil
  · constructor
    · intro h hbelow
      by_contra hdeep
      push Not at hdeep
      obtain ⟨hne, hdeep⟩ := hdeep
      have hempty := h.spares (.inr hbelow)
      have hany : ¬ (root = selfPid ∨ s.ordered.any (·.2 = selfPid) = true) := by
        rw [hs.any_iff]
        rintro (hsame | ⟨-, n, hn, hlevel⟩)
        · exact hne hsame.symm
        · exact hdeep n hn hlevel
      rw [heq, if_neg hany] at hempty
      -- there is a child of the root on the way to the caller
      obtain ⟨n, hn⟩ := transGen_iff_levelsBelow.mp hbelow
      obtain ⟨d, -, hd⟩ := hn.atDepth
      obtain ⟨a, ha⟩ := hd.above (Nat.one_le_iff_ne_zero.mpr ((atDepth_pos hd).mpr hne).ne')
      have hmem := (hs.mem_sweep a).mpr (within_iff_atDepth.mp ⟨1, Nat.one_pos, by omega, ha⟩)
      exact absurd (hempty ▸ hmem) List.not_mem_nil
    · intro hseen
      refine ⟨hnodup, hroot, ?_, ?_, ?_⟩
      · rintro (rfl | hbelow)
        · rw [heq, if_pos (.inl rfl)]
        · rw [heq]
          refine if_pos ?_
          rw [hs.any_iff]
          by_cases hsame : root = selfPid
          · exact .inl hsame
          · exact .inr ⟨Ne.symm hsame, (hseen hbelow).resolve_left (Ne.symm hsame)⟩
      · intro hout c
        have hany : ¬ (root = selfPid ∨ s.ordered.any (·.2 = selfPid) = true) := by
          rw [hs.any_iff, ← within_iff_atDepth]
          rintro (hsame | ⟨d, hd, -, hlevel, -⟩)
          · exact hout (.inl hsame.symm)
          · refine hout (.inr (transGen_iff_levelsBelow.mpr ⟨d - 1, ?_⟩))
            rwa [Nat.sub_add_cancel hd]
        rw [heq, if_neg hany, hs.mem_sweep]
      · intro c hc a ha habove
        rw [heq] at hc ha ⊢
        split at hc
        next => exact absurd hc List.not_mem_nil
        next hany =>
          rw [if_neg hany] at ha ⊢
          exact hs.idxOf_lt hc ha habove

/-- A chain of processes: the one with the pid 1 has a child, that has a child, and so on, 33 below
it. -/
def deepChain : ProcTable where
  rows := (List.range 33).map fun k => (Int32.ofNat (k + 2), { ppid := Int32.ofNat (k + 1), cmd := "sh" })
  unique := by decide

/-- The caller at the end of the chain is not seen, and those above it are swept. -/
theorem deepChain_not_sweeps : ¬ deepChain.Sweeps 1 34 (descendantKillList 1 34 deepChain) := by
  intro h
  have hchild : ∀ k < 33, deepChain.Child (Int32.ofNat (k + 2)) (Int32.ofNat (k + 1)) := by
    intro k hk
    have hcond : ∀ k < 33, 0 < Int32.ofNat (k + 2) ∧ 0 < Int32.ofNat (k + 1) ∧
        Int32.ofNat (k + 1) ≠ Int32.ofNat (k + 2) := by decide
    obtain ⟨hpos, hppid, hne⟩ := hcond k hk
    exact ⟨_, List.mem_map.mpr ⟨k, List.mem_range.mpr hk, rfl⟩, hpos, hppid, hne, rfl⟩
  have hbelow : ∀ k ≤ 33, deepChain.LevelsBelow 1 k (Int32.ofNat (k + 1)) := by
    intro k
    induction k with
    | zero => exact fun _ => .root
    | succ k ih => exact fun hk => .child (hchild k hk) (ih (by omega))
  have hempty := h.spares (.inr (transGen_iff_levelsBelow.mpr ⟨32, hbelow 33 le_rfl⟩))
  have hlength : (descendantKillList 1 34 deepChain).length = 32 := by
    rw [descendantKillList, if_neg (by decide)]
    dsimp only
    rw [if_neg (by decide), List.length_map, List.length_mergeSort]
    decide
  rw [hempty] at hlength
  cases hlength

end ProcTable

end QuorumDispatch.Kill
