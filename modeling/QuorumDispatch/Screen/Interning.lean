import QuorumDispatch.Screen.Changes
import Mathlib.Data.List.Nodup

/-!
The table of styles. An id that a cell uses is the default one or a slot that is not
free: such an id resolves to the same style whatever is interned, and compaction does not
free it while a cell uses it.

A style is found again by way of the index. Compaction drops the entry of every style
that an unused slot holds, and a free slot still holds the style it had. The index stays
complete as long as no free slot holds the style of an id in use.
-/

namespace QuorumDispatch.Screen

open Lib

namespace StyleTable

structure Ok (t : StyleTable) : Prop where
  default : t.get 0 = {}
  pos : 0 < t.styles.length
  free : ∀ k ∈ t.freeSlots, 0 < k ∧ k < t.styles.length
  nodup : t.freeSlots.Nodup
  slot : ∀ s id, (s, id) ∈ t.index → 0 < id ∧ id < t.styles.length ∧ id ∉ t.freeSlots
  style : ∀ s id, (s, id) ∈ t.index → t.get id = s ∧ s ≠ {}
  keys : (t.index.map Prod.fst).Nodup

def Used (t : StyleTable) (id : Nat) : Prop :=
  id = 0 ∨ 0 < id ∧ id < t.styles.length ∧ id ∉ t.freeSlots

def Complete (t : StyleTable) : Prop :=
  ∀ id, 0 < id → id < t.styles.length → id ∉ t.freeSlots → (t.get id, id) ∈ t.index

variable {t t' : StyleTable} {s : Style} {id : Nat}

theorem ok_empty : Ok {} where
  default := rfl
  pos := Nat.one_pos
  free := by simp
  nodup := .nil
  slot := by simp
  style := by simp
  keys := .nil

theorem complete_empty : Complete {} := by
  intro id hpos hlt
  change id < 1 at hlt
  omega

theorem Ok.used_of_gives (h : t.Ok) (hid : t.Gives id) : t.Used id := by
  obtain rfl | ⟨s, hs⟩ := hid
  · exact .inl rfl
  · exact .inr (h.slot s id hs)

theorem Complete.mem_index (h : t.Complete) (hid : t.Used id) (hne : id ≠ 0) :
    (t.get id, id) ∈ t.index := by
  obtain rfl | ⟨hpos, hlt, hfree⟩ := hid
  · exact absurd rfl hne
  · exact h id hpos hlt hfree

theorem Ok.eq_of_mem_index (h : t.Ok) {id' : Nat} (hid : (s, id) ∈ t.index)
    (hid' : (s, id') ∈ t.index) : id = id' := by
  have hpair := List.inj_on_of_nodup_map h.keys hid hid' rfl
  exact congrArg Prod.snd hpair

theorem Ok.lookup (h : t.Ok) (hid : (s, id) ∈ t.index) : t.index.lookup s = some id := by
  cases hfound : t.index.lookup s with
  | none => simpa using List.lookup_eq_none_iff.mp hfound (s, id) hid
  | some id' =>
      obtain ⟨l₁, l₂, hindex, -⟩ := List.lookup_eq_some_iff.mp hfound
      have hid' : (s, id') ∈ t.index := by simp [hindex]
      rw [h.eq_of_mem_index hid hid']

theorem mem_index_of_lookup (h : t.index.lookup s = some id) : (s, id) ∈ t.index := by
  obtain ⟨l₁, l₂, hindex, -⟩ := List.lookup_eq_some_iff.mp h
  simp [hindex]

/-! ### Interning -/

/-- What interning can do: find the style, take a free slot, append a slot, or give up on
a full table. -/
theorem intern_cases (h : t.intern s = some (id, t')) :
    (s = {} ∧ id = 0 ∧ t' = t) ∨
    (s ≠ {} ∧ (s, id) ∈ t.index ∧ t' = t) ∨
    (s ≠ {} ∧ (∀ e ∈ t.index, e.1 ≠ s) ∧ ∃ free, t.freeSlots = id :: free ∧ t' =
      { styles := t.styles.set id s, index := (s, id) :: t.index, freeSlots := free }) ∨
    (s ≠ {} ∧ (∀ e ∈ t.index, e.1 ≠ s) ∧ t.freeSlots = [] ∧ t.styles.length ≤ maxId ∧
      id = t.styles.length ∧ t' =
        { t with styles := t.styles ++ [s], index := (s, id) :: t.index }) ∨
    (t.isFull = true ∧ id = 0 ∧ t' = t) := by
  unfold intern at h
  split at h
  next hdefault =>
    cases h
    exact .inl ⟨by simpa [Style.isDefault] using hdefault, rfl, rfl⟩
  next hdefault =>
    have hne : s ≠ {} := by simpa [Style.isDefault] using hdefault
    split at h
    next hfound =>
      cases h
      exact .inr (.inl ⟨hne, mem_index_of_lookup hfound, rfl⟩)
    next hnone =>
      have hfresh : ∀ e ∈ t.index, e.1 ≠ s := by
        intro e he heq
        have := List.lookup_eq_none_iff.mp hnone e he
        simp [heq] at this
      split at h
      next k free hfree =>
        split at h
        · cases h
          exact .inr (.inr (.inl ⟨hne, hfresh, free, hfree, rfl⟩))
        · cases h
      next hfree =>
        split at h
        next hlong =>
          cases h
          exact .inr (.inr (.inr (.inr ⟨by simp [isFull, hlong, hfree], rfl, rfl⟩)))
        next hroom =>
          cases h
          exact .inr (.inr (.inr (.inl ⟨hne, hfresh, hfree, by omega, rfl, rfl⟩)))

theorem Ok.intern (h : t.Ok) (hi : t.intern s = some (id, t')) : t'.Ok := by
  obtain ⟨-, -, rfl⟩ | ⟨-, -, rfl⟩ | ⟨hne, hfresh, free, hfree, rfl⟩ |
    ⟨hne, hfresh, hfree, -, rfl, rfl⟩ | ⟨-, -, rfl⟩ := intern_cases hi
  · exact h
  · exact h
  · -- a free slot is taken
    have hnodup := h.nodup
    rw [hfree] at hnodup
    obtain ⟨hnotin, hnodup⟩ := List.nodup_cons.mp hnodup
    obtain ⟨hpos, hlt⟩ := h.free id (by simp [hfree])
    have hget : ∀ k, k ≠ id → (t.styles.set id s).getD k {} = t.styles.getD k {} := by
      intro k hk
      simp [Ne.symm hk]
    refine ⟨?_, by simpa using h.pos, ?_, hnodup, ?_, ?_, ?_⟩
    · exact (hget 0 hpos.ne).trans h.default
    · intro k hk
      simpa using h.free k (by simp [hfree, hk])
    · intro s' k hk
      obtain heq | hk := List.mem_cons.mp hk
      · cases heq
        exact ⟨hpos, by simpa using hlt, hnotin⟩
      · obtain ⟨hkpos, hklt, hkfree⟩ := h.slot s' k hk
        rw [hfree] at hkfree
        exact ⟨hkpos, by simpa using hklt, fun hmem => hkfree (List.mem_cons_of_mem _ hmem)⟩
    · intro s' k hk
      obtain heq | hk := List.mem_cons.mp hk
      · cases heq
        exact ⟨by simp [get, hlt], hne⟩
      · have hkne : k ≠ id := fun heq => (h.slot s' k hk).2.2 (by simp [heq, hfree])
        obtain ⟨hstyle, hdefault⟩ := h.style s' k hk
        exact ⟨(hget k hkne).trans hstyle, hdefault⟩
    · refine List.nodup_cons.mpr ⟨fun hmem => ?_, h.keys⟩
      obtain ⟨e, he, heq⟩ := List.mem_map.mp hmem
      exact hfresh e he heq
  · -- a slot is appended
    have hget : ∀ k < t.styles.length, (t.styles ++ [s]).getD k {} = t.styles.getD k {} := by
      intro k hk
      simp [List.getElem?_append_left hk]
    refine ⟨(hget 0 h.pos).trans h.default, by simp, by simp [hfree], by simp [hfree], ?_, ?_, ?_⟩
    · intro s' k hk
      obtain heq | hk := List.mem_cons.mp hk
      · cases heq
        exact ⟨h.pos, by simp, by simp [hfree]⟩
      · obtain ⟨hkpos, hklt, hkfree⟩ := h.slot s' k hk
        exact ⟨hkpos, by simpa using Nat.lt_succ_of_lt hklt, hkfree⟩
    · intro s' k hk
      obtain heq | hk := List.mem_cons.mp hk
      · cases heq
        exact ⟨by simp [get], hne⟩
      · obtain ⟨hstyle, hdefault⟩ := h.style s' k hk
        exact ⟨(hget k (h.slot s' k hk).2.1).trans hstyle, hdefault⟩
    · refine List.nodup_cons.mpr ⟨fun hmem => ?_, h.keys⟩
      obtain ⟨e, he, heq⟩ := List.mem_map.mp hmem
      exact hfresh e he heq
  · exact h

theorem Used.intern (hid' : t.Used id) {k : Nat} (h : t.Ok) (hi : t.intern s = some (k, t')) :
    t'.Used id ∧ t'.get id = t.get id := by
  obtain ⟨-, -, rfl⟩ | ⟨-, -, rfl⟩ | ⟨-, -, free, hfree, rfl⟩ | ⟨-, -, hfree, -, rfl, rfl⟩ |
    ⟨-, -, rfl⟩ := intern_cases hi
  · exact ⟨hid', rfl⟩
  · exact ⟨hid', rfl⟩
  · have hkpos := (h.free k (by simp [hfree])).1
    have hne : id ≠ k := by
      rintro rfl
      obtain rfl | ⟨-, -, hnotin⟩ := hid'
      · exact absurd rfl hkpos.ne
      · exact hnotin (by simp [hfree])
    refine ⟨?_, by simp [get, Ne.symm hne]⟩
    obtain rfl | ⟨hpos, hlt, hnotin⟩ := hid'
    · exact .inl rfl
    · rw [hfree] at hnotin
      exact .inr ⟨hpos, by simpa using hlt, fun hmem => hnotin (List.mem_cons_of_mem _ hmem)⟩
  · obtain rfl | ⟨hpos, hlt, hnotin⟩ := hid'
    · exact ⟨.inl rfl, (h.intern hi).default.trans h.default.symm⟩
    · exact ⟨.inr ⟨hpos, by simpa using Nat.lt_succ_of_lt hlt, hnotin⟩,
        by simp [get, List.getElem?_append_left hlt]⟩
  · exact ⟨hid', rfl⟩

theorem Complete.intern (hc : t.Complete) (h : t.Ok) (hi : t.intern s = some (id, t')) :
    t'.Complete := by
  have hok := h.intern hi
  obtain ⟨-, -, rfl⟩ | ⟨-, -, rfl⟩ | ⟨-, -, free, hfree, rfl⟩ | ⟨-, -, hfree, -, rfl, rfl⟩ |
    ⟨-, -, rfl⟩ := intern_cases hi
  · exact hc
  · exact hc
  · intro k hpos hlt hnotin
    by_cases hk : k = id
    · subst hk
      have hstyle := (hok.style s k List.mem_cons_self).1
      rw [hstyle]
      exact List.mem_cons_self
    · have hmem : (t.get k, k) ∈ t.index := by
        refine hc k hpos (by simpa using hlt) fun hmem => ?_
        rw [hfree] at hmem
        obtain rfl | hmem := List.mem_cons.mp hmem
        · exact hk rfl
        · exact hnotin hmem
      have hget := (Used.intern (.inr (h.slot _ k hmem)) h hi).2
      rw [hget]
      exact List.mem_cons_of_mem _ hmem
  · intro k hpos hlt hnotin
    by_cases hk : k = t.styles.length
    · subst hk
      have hstyle := (hok.style s _ List.mem_cons_self).1
      rw [hstyle]
      exact List.mem_cons_self
    · simp only [List.length_append, List.length_singleton] at hlt
      have hmem : (t.get k, k) ∈ t.index := hc k hpos (by omega) hnotin
      have hget := (Used.intern (.inr (h.slot _ k hmem)) h hi).2
      rw [hget]
      exact List.mem_cons_of_mem _ hmem
  · exact hc

/-- Until the table is full, the id of a style resolves to the style. -/
theorem Ok.get_intern (h : t.Ok) (hroom : t.isFull = false) (hi : t.intern s = some (id, t')) :
    t'.get id = s := by
  have hok := h.intern hi
  obtain ⟨rfl, rfl, rfl⟩ | ⟨-, hmem, rfl⟩ | ⟨-, -, free, hfree, rfl⟩ | ⟨-, -, hfree, -, rfl, rfl⟩ |
    ⟨hfull, -, -⟩ := intern_cases hi
  · exact h.default
  · exact (h.style s id hmem).1
  · exact (hok.style s id List.mem_cons_self).1
  · exact (hok.style s _ List.mem_cons_self).1
  · simp [hroom] at hfull

/-- The style of an id of the index is found again, under the same id. -/
theorem Complete.intern_get (hc : t.Complete) (h : t.Ok) (hid : t.Used id) :
    t.intern (t.get id) = some (id, t) := by
  by_cases hzero : id = 0
  · subst hzero
    simp [StyleTable.intern, h.default, Style.isDefault]
  · have hmem := hc.mem_index hid hzero
    have hne := (h.style _ id hmem).2
    have hdefault : (t.get id).isDefault = false := by simpa [Style.isDefault] using hne
    simp [StyleTable.intern, hdefault, h.lookup hmem]

/-! ### Compaction -/

def dead (live : List Bool) (k : Nat) : Bool := live[k]? == some false

theorem foldl_reclaimSlot (live : List Bool) (ids : List Nat) (t : StyleTable) :
    ids.foldl (reclaimSlot live) t =
      { styles := t.styles
        index := t.index.filter fun e => ids.all fun k => !dead live k || e.1 != t.get k
        freeSlots := (ids.filter (dead live)).reverse ++ t.freeSlots } := by
  induction ids generalizing t with
  | nil => simp
  | cons k ids ih =>
      rw [List.foldl_cons, ih]
      by_cases hk : live[k]? = some false
      · have hdead : dead live k = true := by simp [dead, hk]
        simp only [reclaimSlot, if_pos hk, get, List.filter_filter, List.all_cons, hdead,
          Bool.not_true, Bool.false_or, List.filter_cons_of_pos, List.reverse_cons,
          List.append_assoc, List.singleton_append]
        congr 2
        funext e
        exact Bool.and_comm ..
      · have hdead : dead live k = false := by simp [dead, hk]
        simp [reclaimSlot, if_neg hk, hdead]

def Holds (lines : List Line) (id : Nat) : Prop :=
  ∃ line ∈ lines, ∃ cell ∈ line.cells, cell.styleId = id

theorem dead_compactTable (n : Nat) (lines : List Line) {k : Nat} (hpos : 0 < k) :
    dead ((List.range n).map fun id =>
      id == 0 || lines.any fun line => line.cells.any fun cell => cell.styleId == id) k = true ↔
      k < n ∧ ¬Holds lines k := by
  have hzero : (k == 0) = false := by simpa using hpos.ne'
  by_cases hk : k < n
  · simp [dead, Holds, hk, hzero]
  · simp [dead, hk]

@[simp] theorem styles_compactTable (t : StyleTable) (lines : List Line) :
    (compactTable t lines).styles = t.styles := by
  unfold compactTable
  split_ifs
  · rfl
  · rw [reclaim, foldl_reclaimSlot]

@[simp] theorem get_compactTable (t : StyleTable) (lines : List Line) (k : Nat) :
    (compactTable t lines).get k = t.get k := by
  rw [get, styles_compactTable, get]

/-- Compaction frees the slots that no line holds, and these only. -/
theorem Ok.mem_freeSlots_compactTable (h : t.Ok) (lines : List Line) {k : Nat} :
    k ∈ (compactTable t lines).freeSlots ↔ 0 < k ∧ k < t.styles.length ∧ ¬Holds lines k := by
  unfold compactTable
  split_ifs with hlen
  · -- there is only the slot of the default
    refine ⟨fun hk => ?_, fun hk => ?_⟩
    · have := h.free k hk
      omega
    · omega
  · rw [reclaim, foldl_reclaimSlot]
    simp only [List.append_nil, List.mem_reverse, List.mem_filter, List.mem_range'_1]
    refine ⟨fun ⟨hk, hdead⟩ => ?_, fun ⟨hpos, hlt, hnot⟩ => ?_⟩
    · exact ⟨hk.1, (dead_compactTable _ lines hk.1).mp hdead⟩
    · exact ⟨by omega, (dead_compactTable _ lines hpos).mpr ⟨hlt, hnot⟩⟩

/-- It drops the entries of the styles that these slots hold. -/
theorem mem_index_compactTable (t : StyleTable) (lines : List Line) {e : Style × Nat} :
    e ∈ (compactTable t lines).index ↔ e ∈ t.index ∧
      ∀ k, 0 < k → k < t.styles.length → ¬Holds lines k → e.1 ≠ t.get k := by
  unfold compactTable
  split_ifs with hlen
  · exact ⟨fun he => ⟨he, fun k _ _ => by omega⟩, fun he => he.1⟩
  · rw [reclaim, foldl_reclaimSlot]
    simp only [List.mem_filter, List.all_eq_true, List.mem_range'_1, Bool.or_eq_true,
      Bool.not_eq_true', bne_iff_ne]
    refine and_congr_right fun _ => ⟨fun hall k hpos hlt hnot => ?_, fun hall k hk => ?_⟩
    · have hdead := (dead_compactTable _ lines hpos).mpr ⟨hlt, hnot⟩
      obtain hlive | hne := hall k (by omega)
      · simp [hdead] at hlive
      · exact hne
    · by_cases hheld : Holds lines k
      · refine .inl (Bool.eq_false_iff.mpr fun hdead => ?_)
        exact ((dead_compactTable _ lines hk.1).mp hdead).2 hheld
      · exact .inr (hall k hk.1 (by omega) hheld)

theorem index_compactTable_sublist (t : StyleTable) (lines : List Line) :
    (compactTable t lines).index.Sublist t.index := by
  unfold compactTable
  split_ifs
  · exact .refl _
  · rw [reclaim, foldl_reclaimSlot]
    exact List.filter_sublist

theorem nodup_freeSlots_compactTable (h : t.Ok) (lines : List Line) :
    (compactTable t lines).freeSlots.Nodup := by
  unfold compactTable
  split_ifs
  · exact h.nodup
  · rw [reclaim, foldl_reclaimSlot]
    have hnodup : (List.range' 1 (t.styles.length - 1)).Nodup := List.nodup_range'
    simpa using hnodup.filter _

theorem Ok.compactTable (h : t.Ok) {lines : List Line} : (compactTable t lines).Ok where
  default := by rw [get_compactTable, h.default]
  pos := by rw [styles_compactTable]; exact h.pos
  free k hk := by
    rw [styles_compactTable]
    obtain ⟨hpos, hlt, -⟩ := (h.mem_freeSlots_compactTable lines).mp hk
    exact ⟨hpos, hlt⟩
  nodup := nodup_freeSlots_compactTable h lines
  slot s id hid := by
    obtain ⟨hmem, hdead⟩ := (mem_index_compactTable t lines).mp hid
    obtain ⟨hpos, hlt, -⟩ := h.slot s id hmem
    refine ⟨hpos, by rwa [styles_compactTable], fun hfree => ?_⟩
    -- the entry of a slot that is freed is dropped
    obtain ⟨-, -, hnot⟩ := (h.mem_freeSlots_compactTable lines).mp hfree
    exact hdead id hpos hlt hnot (h.style s id hmem).1.symm
  style s id hid := by
    rw [get_compactTable]
    exact h.style s id ((index_compactTable_sublist t lines).subset hid)
  keys := h.keys.sublist ((index_compactTable_sublist t lines).map _)

theorem Used.compactTable (hid : t.Used id) (h : t.Ok) {lines : List Line}
    (hheld : Holds lines id) : (compactTable t lines).Used id := by
  obtain rfl | ⟨hpos, hlt, -⟩ := hid
  · exact .inl rfl
  · refine .inr ⟨hpos, by rwa [styles_compactTable], fun hfree => ?_⟩
    exact ((h.mem_freeSlots_compactTable lines).mp hfree).2.2 hheld

/-- No free slot holds the style of an id that the lines hold; the default, which is not
in the index, apart. -/
def FreeApart (t : StyleTable) (lines : List Line) : Prop :=
  ∀ k ∈ t.freeSlots, ∀ id, 0 < id → Holds lines id → t.get k ≠ t.get id

/-- Compaction keeps the index complete if no free slot holds a style in use. -/
theorem Complete.compactTable (hc : t.Complete) (h : t.Ok) {lines : List Line}
    (hlines : ∀ id, Holds lines id → t.Used id) (hapart : t.FreeApart lines) :
    (compactTable t lines).Complete := by
  intro id hpos hlt hnotin
  rw [styles_compactTable] at hlt
  have hheld : Holds lines id := by
    by_contra hnot
    exact hnotin ((h.mem_freeSlots_compactTable lines).mpr ⟨hpos, hlt, hnot⟩)
  have hmem : (t.get id, id) ∈ t.index := hc.mem_index (hlines id hheld) hpos.ne'
  rw [get_compactTable]
  refine (mem_index_compactTable t lines).mpr ⟨hmem, fun k hkpos hklt hnot heq => ?_⟩
  by_cases hfree : k ∈ t.freeSlots
  · exact hapart k hfree id hpos hheld heq.symm
  · -- two slots of the index do not share a style
    have hk := hc k hkpos hklt hfree
    have heq : t.get id = t.get k := heq
    rw [← heq] at hk
    exact hnot (h.eq_of_mem_index hk hmem ▸ hheld)

end StyleTable

end QuorumDispatch.Screen
