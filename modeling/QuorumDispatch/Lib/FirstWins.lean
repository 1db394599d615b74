import Mathlib.Data.Finset.Basic
import Mathlib.Data.Finset.Lattice.Lemmas
import Mathlib.Data.List.Perm.Basic

/-!
Lists that are merged by key. `keepFirst` keeps what claims its key first, `OrderedMap` keeps
one value for each key in the order in which the keys were seen, and `emitAll` goes through a
list with a state that every element reads and changes.
-/

namespace QuorumDispatch.Lib

/-! ### The first with a key -/

section KeepFirst

variable {α κ : Type} [DecidableEq κ] {key : α → κ} {seen : Finset κ} {xs ys : List α} {x : α} {k : κ}

def keepFirst (key : α → κ) : Finset κ → List α → List α
  | _, [] => []
  | seen, x :: xs =>
      if key x ∈ seen then keepFirst key seen xs else x :: keepFirst key (insert (key x) seen) xs

theorem keepFirst_nil : keepFirst key seen [] = [] := rfl

theorem keepFirst_cons : keepFirst key seen (x :: xs) =
    if key x ∈ seen then keepFirst key seen xs else x :: keepFirst key (insert (key x) seen) xs := rfl

def seenAfter (key : α → κ) (seen : Finset κ) (kept : List α) : Finset κ :=
  kept.foldl (fun seen x => insert (key x) seen) seen

theorem mem_seenAfter {kept : List α} : k ∈ seenAfter key seen kept ↔ k ∈ seen ∨ ∃ x ∈ kept, key x = k := by
  induction kept generalizing seen with
  | nil =>
      change k ∈ seen ↔ _
      simp
  | cons x kept ih =>
      change k ∈ seenAfter key (insert (key x) seen) kept ↔ _
      rw [ih, Finset.mem_insert, List.exists_mem_cons_iff]
      grind

theorem keepFirst_sublist : (keepFirst key seen xs).Sublist xs := by
  induction xs generalizing seen with
  | nil => exact List.Sublist.refl []
  | cons x xs ih =>
      rw [keepFirst_cons]
      split
      · exact ih.cons x
      · exact ih.cons_cons x

theorem keepFirst_append :
    keepFirst key seen (xs ++ ys) =
      keepFirst key seen xs ++ keepFirst key (seenAfter key seen (keepFirst key seen xs)) ys := by
  induction xs generalizing seen with
  | nil => rfl
  | cons x xs ih =>
      simp only [List.cons_append, keepFirst_cons]
      split
      · exact ih
      · rw [ih]
        rfl

theorem keepFirst_map {β : Type} (f : β → α) (zs : List β) :
    keepFirst key seen (zs.map f) = (keepFirst (key ∘ f) seen zs).map f := by
  induction zs generalizing seen with
  | nil => rfl
  | cons z zs ih =>
      simp only [List.map_cons, keepFirst_cons, Function.comp_apply]
      split
      · exact ih
      · rw [ih, List.map_cons]

theorem keepFirst_union (others : Finset κ) :
    keepFirst key (seen ∪ others) xs = (keepFirst key seen xs).filter (key · ∉ others) := by
  induction xs generalizing seen with
  | nil => rfl
  | cons x xs ih =>
      have hinsert : insert (key x) (seen ∪ others) = insert (key x) seen ∪ others :=
        (Finset.insert_union _ _ _).symm
      simp only [keepFirst_cons, Finset.mem_union]
      by_cases hseen : key x ∈ seen
      · rw [if_pos (.inl hseen), if_pos hseen, ih]
      by_cases hother : key x ∈ others
      · have hsame : insert (key x) seen ∪ others = seen ∪ others := by
          rw [Finset.insert_union, Finset.insert_eq_of_mem (Finset.mem_union_right _ hother)]
        rw [if_pos (.inr hother), if_neg hseen, List.filter_cons_of_neg (by simpa using hother), ← ih,
          hsame]
      · rw [if_neg (not_or.mpr ⟨hseen, hother⟩), if_neg hseen, List.filter_cons_of_pos (by simpa using hother), ← ih,
          hinsert]

theorem mem_keys_keepFirst : k ∈ (keepFirst key seen xs).map key ↔ k ∉ seen ∧ k ∈ xs.map key := by
  induction xs generalizing seen with
  | nil => simp [keepFirst_nil]
  | cons x xs ih =>
      rw [keepFirst_cons]
      split
      · rw [ih]
        grind
      · rw [List.map_cons, List.mem_cons, ih]
        grind

theorem nodup_keys_keepFirst : ((keepFirst key seen xs).map key).Nodup := by
  induction xs generalizing seen with
  | nil => exact List.nodup_nil
  | cons x xs ih =>
      rw [keepFirst_cons]
      split
      · exact ih
      · rw [List.map_cons, List.nodup_cons]
        exact ⟨fun hmem => (mem_keys_keepFirst.mp hmem).1 (Finset.mem_insert_self _ _), ih⟩

/-- **What is kept of a key is the first that has it.** -/
theorem filter_keepFirst (k : κ) :
    (keepFirst key seen xs).filter (key · = k) =
      if k ∈ seen then [] else (xs.find? (key · = k)).toList := by
  induction xs generalizing seen with
  | nil => simp [keepFirst_nil]
  | cons x xs ih =>
      rw [keepFirst_cons, List.find?_cons]
      by_cases hx : key x = k
      · by_cases hseen : key x ∈ seen
        · rw [if_pos hseen, ih, if_pos (hx ▸ hseen), if_pos (hx ▸ hseen)]
        · rw [if_neg hseen, List.filter_cons_of_pos (by simpa using hx), ih,
            if_pos (hx ▸ Finset.mem_insert_self _ _), if_neg (hx ▸ hseen)]
          simp [hx]
      · have hskip : decide (key x = k) = false := decide_eq_false hx
        by_cases hseen : key x ∈ seen
        · rw [if_pos hseen, ih, hskip]
        · rw [if_neg hseen, List.filter_cons_of_neg (by simpa using hx), ih, hskip]
          simp only [Finset.mem_insert, Ne.symm hx, false_or]

end KeepFirst

/-! ### One value for each key -/

/-- The keys in the order in which they were seen first, with a value for each. -/
structure OrderedMap (κ α : Type) where
  order : List κ
  get : κ → Option α
  nodup : order.Nodup
  mem_order : ∀ k, k ∈ order ↔ (get k).isSome

namespace OrderedMap

variable {κ α : Type} [DecidableEq κ]

def empty : OrderedMap κ α where
  order := []
  get _ := none
  nodup := List.nodup_nil
  mem_order k := by simp

def upsert (m : OrderedMap κ α) (k : κ) (f : Option α → α) : OrderedMap κ α where
  order := if (m.get k).isSome then m.order else m.order ++ [k]
  get := Function.update m.get k (some (f (m.get k)))
  nodup := by
    split
    · exact m.nodup
    next hnew =>
      refine List.nodup_append.mpr ⟨m.nodup, List.nodup_singleton k, ?_⟩
      rintro a ha b hb rfl
      rw [List.mem_singleton.mp hb, m.mem_order] at ha
      exact hnew ha
  mem_order j := by
    by_cases hj : j = k
    · subst hj
      rw [Function.update_self]
      split
      next hold => exact iff_of_true ((m.mem_order j).mpr hold) rfl
      · exact iff_of_true (List.mem_append_right _ (List.mem_singleton_self j)) rfl
    · rw [Function.update_of_ne hj]
      split
      · exact m.mem_order j
      · rw [← m.mem_order, List.mem_append, List.mem_singleton, or_iff_left hj]

def values (m : OrderedMap κ α) : List α := m.order.filterMap m.get

/-- The values of a list: of two with one key, `pick` says which stays. -/
def collect (key : α → κ) (pick : α → α → α) (xs : List α) : OrderedMap κ α :=
  xs.foldl (fun m x => m.upsert (key x) fun old => old.elim x (pick · x)) empty

def reduce (pick : α → α → α) : List α → Option α
  | [] => none
  | x :: xs => some (xs.foldl pick x)

variable {key : α → κ} {pick : α → α → α}

theorem reduce_snoc (xs : List α) (x : α) :
    reduce pick (xs ++ [x]) = some ((reduce pick xs).elim x (pick · x)) := by
  cases xs with
  | nil => rfl
  | cons y ys =>
      change some ((ys ++ [x]).foldl pick y) = some (pick (ys.foldl pick y) x)
      rw [List.foldl_append]
      rfl

theorem collect_snoc (xs : List α) (x : α) :
    collect key pick (xs ++ [x]) =
      (collect key pick xs).upsert (key x) fun old => old.elim x (pick · x) :=
  List.foldl_append

/-- **The value of a key is made of all that have the key.** -/
theorem get_collect (xs : List α) (k : κ) :
    (collect key pick xs).get k = reduce pick (xs.filter (key · = k)) := by
  induction xs using List.reverseRecOn with
  | nil => rfl
  | append_singleton xs x ih =>
      rw [collect_snoc, List.filter_append]
      by_cases hx : k = key x
      · subst hx
        rw [List.filter_cons_of_pos (by simp), List.filter_nil, reduce_snoc, ← ih]
        exact Function.update_self _ _ _
      · rw [List.filter_cons_of_neg (by simpa using Ne.symm hx), List.filter_nil, List.append_nil, ← ih]
        exact Function.update_of_ne hx _ _

theorem order_prefix (m : OrderedMap κ α) (f : α → Option α → α) (xs : List α) :
    m.order <+: (xs.foldl (fun m x => m.upsert (key x) (f x)) m).order := by
  induction xs generalizing m with
  | nil => exact List.prefix_refl _
  | cons x xs ih =>
      refine List.IsPrefix.trans ?_ (ih (m.upsert (key x) (f x)))
      change m.order <+: if _ then _ else _
      split
      · exact List.prefix_refl _
      · exact List.prefix_append _ _

theorem order_collect_cons (x : α) (xs : List α) :
    ∃ rest, (collect key pick (x :: xs)).order = key x :: rest := by
  have hprefix : [key x] <+: (collect key pick (x :: xs)).order :=
    order_prefix (empty.upsert (key x) fun _ => x) (fun x old => old.elim x (pick · x)) xs
  obtain ⟨rest, hrest⟩ := hprefix
  exact ⟨rest, hrest.symm⟩

theorem mem_order_collect (xs : List α) (k : κ) :
    k ∈ (collect key pick xs).order ↔ ∃ x ∈ xs, key x = k := by
  rw [mem_order, get_collect]
  constructor
  · intro hsome
    cases hfilter : xs.filter (key · = k) with
    | nil =>
        rw [hfilter] at hsome
        cases hsome
    | cons x rest =>
        have hx : x ∈ xs.filter (key · = k) := hfilter ▸ List.mem_cons_self
        obtain ⟨hmem, hkey⟩ := List.mem_filter.mp hx
        exact ⟨x, hmem, of_decide_eq_true hkey⟩
  · rintro ⟨x, hx, hkey⟩
    have hmem : x ∈ xs.filter (key · = k) := List.mem_filter.mpr ⟨hx, decide_eq_true hkey⟩
    cases hfilter : xs.filter (key · = k) with
    | nil =>
        rw [hfilter] at hmem
        cases hmem
    | cons y rest => rfl

theorem mem_of_reduce (hpick : ∀ a b, pick a b = a ∨ pick a b = b) {xs : List α} {x : α}
    (hx : reduce pick xs = some x) : x ∈ xs := by
  induction xs using List.reverseRecOn generalizing x with
  | nil => cases hx
  | append_singleton xs y ih =>
      rw [reduce_snoc, Option.some.injEq] at hx
      cases hold : reduce pick xs with
      | none =>
          rw [hold] at hx
          exact List.mem_append_right _ (hx ▸ List.mem_singleton_self _)
      | some z =>
          rw [hold] at hx
          rcases hpick z y with hz | hy
          · exact List.mem_append_left _ (hx ▸ ih (hold.trans (congrArg some hz.symm)))
          · exact List.mem_append_right _ (List.mem_singleton.mpr (hx ▸ hy))

theorem key_of_reduce (hpick : ∀ a b, pick a b = a ∨ pick a b = b) {xs : List α} {k : κ} {x : α}
    (hx : reduce pick (xs.filter (key · = k)) = some x) : key x = k :=
  of_decide_eq_true (List.mem_filter.mp (mem_of_reduce hpick hx)).2

theorem mem_values_collect (hpick : ∀ a b, pick a b = a ∨ pick a b = b) {xs : List α} {x : α} :
    x ∈ (collect key pick xs).values ↔ reduce pick (xs.filter (key · = key x)) = some x := by
  rw [values, List.mem_filterMap]
  constructor
  · rintro ⟨k, -, hget⟩
    rw [get_collect] at hget
    rwa [key_of_reduce hpick hget]
  · intro hx
    refine ⟨key x, ?_, ?_⟩
    · rw [mem_order, get_collect, hx]
      rfl
    · rw [get_collect, hx]

theorem nodup_values_collect (hpick : ∀ a b, pick a b = a ∨ pick a b = b) (xs : List α) :
    (collect key pick xs).values.Nodup := by
  refine (collect key pick xs).nodup.filterMap fun k k' x hx hx' => ?_
  rw [Option.mem_def, get_collect] at hx hx'
  rw [← key_of_reduce hpick hx, key_of_reduce hpick hx']

section Gather

variable {β : Type} {f : α → Option β → β}

/-- One value for each key of a list, made of the elements that have it one after the other. -/
def gather (key : α → κ) (f : α → Option β → β) (xs : List α) : OrderedMap κ β :=
  xs.foldl (fun m x => m.upsert (key x) (f x)) empty

theorem gather_snoc (xs : List α) (x : α) :
    gather key f (xs ++ [x]) = (gather key f xs).upsert (key x) (f x) :=
  List.foldl_append

/-- **A key sees only what has it.** -/
theorem get_gather (xs : List α) (k : κ) : (gather key f xs).get k =
    (xs.filter (key · = k)).foldl (fun old x => some (f x old)) none := by
  induction xs using List.reverseRecOn with
  | nil => rfl
  | append_singleton xs x ih =>
      rw [gather_snoc, List.filter_append]
      by_cases hx : k = key x
      · subst hx
        rw [List.filter_cons_of_pos (by simp), List.filter_nil, List.foldl_append, ← ih]
        exact Function.update_self _ _ _
      · rw [List.filter_cons_of_neg (by simpa using Ne.symm hx), List.filter_nil, List.append_nil, ← ih]
        exact Function.update_of_ne hx _ _

theorem order_gather (xs : List α) :
    (gather key f xs).order = keepFirst id ∅ (xs.map key) := by
  induction xs using List.reverseRecOn with
  | nil => rfl
  | append_singleton xs x ih =>
      have hseen : ((gather key f xs).get (key x)).isSome = true ↔
          id (key x) ∈ seenAfter id ∅ (keepFirst id ∅ (xs.map key)) := by
        rw [← mem_order, ih, mem_seenAfter]
        simp
      rw [gather_snoc, List.map_append, keepFirst_append, ← ih]
      change (if _ then _ else _) = _
      rw [List.map_cons, List.map_nil, keepFirst_cons, keepFirst_nil, ih]
      split
      next hold => rw [if_pos (hseen.mp hold), List.append_nil]
      next hnew =>
        rw [if_neg fun hmem => hnew (hseen.mpr hmem)]
        rfl

end Gather

end OrderedMap

/-! ### Lists in relation -/

section Related

variable {α β : Type} {R : α → β → Prop} {xs : List α} {ys : List β}

theorem filter_forall₂ {p : α → Bool} {q : β → Bool} (hpq : ∀ a b, R a b → p a = q b)
    (h : List.Forall₂ R xs ys) : List.Forall₂ R (xs.filter p) (ys.filter q) :=
  List.rel_filter (fun a b hab => Eq.to_iff (congrArg (· = true) (hpq a b hab))) h

theorem exists_of_forall₂_right (h : List.Forall₂ R xs ys) {y : β} (hy : y ∈ ys) :
    ∃ x ∈ xs, R x y := by
  induction h with
  | nil => cases hy
  | cons hxy _ ih =>
      rcases List.mem_cons.mp hy with rfl | hy
      · exact ⟨_, List.mem_cons_self, hxy⟩
      · obtain ⟨x, hx, hR⟩ := ih hy
        exact ⟨x, List.mem_cons_of_mem _ hx, hR⟩

end Related

/-! ### Going through a list with a state -/

section Emit

variable {σ α β : Type} {emit : σ → α → β × σ}

def emitAll (emit : σ → α → β × σ) : σ → List α → List β × σ
  | s, [] => ([], s)
  | s, x :: xs => ((emit s x).1 :: (emitAll emit (emit s x).2 xs).1, (emitAll emit (emit s x).2 xs).2)

theorem forall₂_emitAll (Inv : σ → Prop) {R : α → β → Prop}
    (hstep : ∀ s x, Inv s → R x (emit s x).1 ∧ Inv (emit s x).2) (xs : List α) {s : σ} (hs : Inv s) :
    List.Forall₂ R xs (emitAll emit s xs).1 ∧ Inv (emitAll emit s xs).2 := by
  induction xs generalizing s with
  | nil => exact ⟨.nil, hs⟩
  | cons x xs ih =>
      obtain ⟨hx, hs'⟩ := hstep s x hs
      obtain ⟨hxs, hend⟩ := ih hs'
      exact ⟨.cons hx hxs, hend⟩

/-- In either order, two elements emit the same and leave the same state. -/
def Commute (emit : σ → α → β × σ) (x y : α) : Prop :=
  ∀ s, (emitAll emit s [x, y]).1.Perm (emitAll emit s [y, x]).1 ∧
    (emitAll emit s [x, y]).2 = (emitAll emit s [y, x]).2

theorem Commute.symm {x y : α} (h : Commute emit x y) : Commute emit y x :=
  fun s => ⟨(h s).1.symm, (h s).2.symm⟩

/-- **If all elements commute, the order of the list does not matter.** -/
theorem emitAll_perm {xs ys : List α} (hperm : xs.Perm ys)
    (hcommute : ∀ x ∈ xs, ∀ y ∈ xs, Commute emit x y) (s : σ) :
    (emitAll emit s xs).1.Perm (emitAll emit s ys).1 ∧ (emitAll emit s xs).2 = (emitAll emit s ys).2 := by
  induction hperm generalizing s with
  | nil => exact ⟨List.Perm.refl _, rfl⟩
  | cons x _ ih =>
      have hrest := ih (fun y hy z hz =>
        hcommute y (List.mem_cons_of_mem x hy) z (List.mem_cons_of_mem x hz)) (emit s x).2
      exact ⟨hrest.1.cons _, hrest.2⟩
  | swap x y l =>
      have hboth := hcommute y List.mem_cons_self x (List.mem_cons_of_mem y List.mem_cons_self) s
      simp only [emitAll] at hboth ⊢
      rw [hboth.2]
      exact ⟨hboth.1.append_right (emitAll emit (emit (emit s x).2 y).2 l).1, rfl⟩
  | trans h₁ _ ih₁ ih₂ =>
      have hfirst := ih₁ hcommute s
      have hsecond := ih₂ (fun x hx y hy => hcommute x (h₁.mem_iff.mpr hx) y (h₁.mem_iff.mpr hy)) s
      exact ⟨hfirst.1.trans hsecond.1, hfirst.2.trans hsecond.2⟩

end Emit

end QuorumDispatch.Lib
