import Mathlib.Data.List.Basic
import Mathlib.Tactic.Common

/-!
Lists whose elements may be linked to the element behind them.

A list may have a seam: the element in front of it runs on into one that stands
elsewhere, and not into the one behind the seam. An operation on such a list inherits
the links when every link there is afterwards was there before, between the same two
elements.
-/

namespace QuorumDispatch.Lib

variable {α ε : Type}

/-- What it is to be linked: the link that an element carries, and what links may name.
The element that carries a link stays the `same` as long as the link does, and the one
behind `s` may change from `u` to `u'` if `kept s u u'`. -/
structure Linkage (α ε : Type) where
  link : α → Option ε
  names : α → ε → α → Prop
  same : α → α → Prop
  kept : α → α → α → Prop
  same_refl : ∀ s, same s s
  same_trans : ∀ {s s' s''}, same s s' → same s' s'' → same s s''
  kept_of_same : ∀ {s u u'}, same u u' → kept s u u'
  kept_trans : ∀ {s s' u u' u''}, same s s' → kept s u u' → kept s' u' u'' → kept s u u''
  names_kept : ∀ {s s' e u u'}, same s s' → kept s u u' → names s e u → names s' e u'

/-- The element behind the one at `i`, where `head` is behind the seam. -/
def behind (seam : Option Nat) (head : Option α) (l : List α) (i : Nat) : Option α :=
  if seam = some (i + 1) then head else l[i + 1]?

theorem behind_of_ne {seam : Option Nat} {i : Nat} (h : seam ≠ some (i + 1)) (head : Option α)
    (l : List α) : behind seam head l i = l[i + 1]? :=
  if_neg h

@[simp] theorem behind_none (head : Option α) (l : List α) (i : Nat) :
    behind none head l i = l[i + 1]? :=
  behind_of_ne (by simp) head l

theorem behind_seam (head : Option α) (l : List α) (i : Nat) :
    behind (some (i + 1)) head l i = head :=
  if_pos rfl

namespace Linkage

variable (L : Linkage α ε)

def Linked (seam : Option Nat) (head : Option α) (l : List α) : Prop :=
  ∀ i s e, l[i]? = some s → L.link s = some e → ∃ u, behind seam head l i = some u ∧ L.names s e u

def Inherits (head : Option α) (seam : Option Nat) (l : List α) (seam' : Option Nat)
    (l' : List α) : Prop :=
  ∀ i s' e, l'[i]? = some s' → L.link s' = some e →
    ∃ j s, l[j]? = some s ∧ L.link s = some e ∧ L.same s s' ∧
      ∀ u, behind seam head l j = some u → L.names s e u →
        ∃ u', behind seam' head l' i = some u' ∧ L.kept s u u'

variable {L} {head : Option α} {seam seam' seam'' : Option Nat} {l l' l'' : List α}

theorem kept_refl (s u : α) : L.kept s u u := L.kept_of_same (L.same_refl u)

namespace Inherits

theorem refl (head : Option α) (seam : Option Nat) (l : List α) :
    L.Inherits head seam l seam l :=
  fun i s _ hs he => ⟨i, s, hs, he, L.same_refl s, fun u hu _ => ⟨u, hu, kept_refl s u⟩⟩

theorem trans (h : L.Inherits head seam l seam' l') (h' : L.Inherits head seam' l' seam'' l'') :
    L.Inherits head seam l seam'' l'' := by
  intro i s'' e hs'' he''
  obtain ⟨j, s', hs', he', hsame', hbehind'⟩ := h' i s'' e hs'' he''
  obtain ⟨k, s, hs, he, hsame, hbehind⟩ := h j s' e hs' he'
  refine ⟨k, s, hs, he, L.same_trans hsame hsame', fun u hu hnames => ?_⟩
  obtain ⟨u', hu', hkept⟩ := hbehind u hu hnames
  obtain ⟨u'', hu'', hkept'⟩ := hbehind' u' hu' (L.names_kept hsame hkept hnames)
  exact ⟨u'', hu'', L.kept_trans hsame hkept hkept'⟩

theorem linked (h : L.Inherits head seam l seam' l') (hl : L.Linked seam head l) :
    L.Linked seam' head l' := by
  intro i s' e hs' he'
  obtain ⟨j, s, hs, he, hsame, hbehind⟩ := h i s' e hs' he'
  obtain ⟨u, hu, hnames⟩ := hl j s e hs he
  obtain ⟨u', hu', hkept⟩ := hbehind u hu hnames
  exact ⟨u', hu', L.names_kept hsame hkept hnames⟩

theorem of_map (F : Nat → α → α) (hF : ∀ i, l'[i]? = l[i]?.map (F i))
    (h : ∀ i s e, l[i]? = some s → L.link (F i s) = some e →
      L.link s = some e ∧ L.same s (F i s) ∧
        (seam ≠ some (i + 1) → ∀ u, l[i + 1]? = some u → L.names s e u →
          L.kept s u (F (i + 1) u))) :
    L.Inherits head seam l seam l' := by
  intro i s' e hs' he'
  rw [hF, Option.map_eq_some_iff] at hs'
  obtain ⟨s, hs, rfl⟩ := hs'
  obtain ⟨he, hsame, hnext⟩ := h i s e hs he'
  refine ⟨i, s, hs, he, hsame, fun u hu hnames => ?_⟩
  by_cases hseam : seam = some (i + 1)
  · subst hseam
    rw [behind_seam] at hu ⊢
    exact ⟨u, hu, kept_refl s u⟩
  · rw [behind_of_ne hseam] at hu ⊢
    rw [hF, hu]
    exact ⟨F (i + 1) u, rfl, hnext hseam u hu hnames⟩

/-- Elements lose their links and stay the same for the rest. -/
theorem of_cuts (F : Nat → α → α) (hF : ∀ i, l'[i]? = l[i]?.map (F i))
    (h : ∀ i s, L.same s (F i s) ∧ ∀ e, L.link (F i s) = some e → L.link s = some e) :
    L.Inherits head seam l seam l' :=
  of_map F hF fun i s e _ he =>
    ⟨(h i s).2 e he, (h i s).1, fun _ u _ _ => L.kept_of_same (h (i + 1) u).1⟩

theorem eraseIdx {k : Nat} (hseam : ∀ b ∈ seam, b ≤ k)
    (h : ∀ i s e u, i + 1 = k → l[i]? = some s → L.link s = some e → l[k]? = some u →
      ¬ L.names s e u) :
    L.Inherits head seam l seam (l.eraseIdx k) := by
  intro i s' e hs' he'
  rw [List.getElem?_eraseIdx] at hs'
  split at hs'
  next hi =>
    refine ⟨i, s', hs', he', L.same_refl s', fun u hu hnames => ?_⟩
    by_cases hb : seam = some (i + 1)
    · subst hb
      rw [behind_seam] at hu ⊢
      exact ⟨u, hu, kept_refl s' u⟩
    · rw [behind_of_ne hb] at hu ⊢
      rcases eq_or_ne (i + 1) k with rfl | hne
      · exact absurd hnames (h i s' e u rfl hs' he' hu)
      · rw [List.getElem?_eraseIdx, if_pos (by omega)]
        exact ⟨u, hu, kept_refl s' u⟩
  next hi =>
    -- behind the element that left, and so behind the seam, all moves by one
    have hb : ∀ n, k ≤ n → seam ≠ some (n + 1) := by
      intro n hn hb
      have := hseam (n + 1) hb
      omega
    refine ⟨i + 1, s', hs', he', L.same_refl s', fun u hu _ => ?_⟩
    rw [behind_of_ne (hb (i + 1) (by omega))] at hu
    rw [behind_of_ne (hb i (by omega)), List.getElem?_eraseIdx, if_neg (by omega)]
    exact ⟨u, hu, kept_refl s' u⟩

theorem insertIdx {k : Nat} {a : α} (hk : k ≤ l.length) (hseam : ∀ b ∈ seam, b ≤ k)
    (ha : L.link a = none)
    (h : ∀ i s e u, i + 1 = k → l[i]? = some s → L.link s = some e → l[k]? = some u →
      ¬ L.names s e u) :
    L.Inherits head seam l seam (l.insertIdx k a) := by
  intro i s' e hs' he'
  rw [List.getElem?_insertIdx] at hs'
  split at hs'
  next hi =>
    refine ⟨i, s', hs', he', L.same_refl s', fun u hu hnames => ?_⟩
    by_cases hb : seam = some (i + 1)
    · subst hb
      rw [behind_seam] at hu ⊢
      exact ⟨u, hu, kept_refl s' u⟩
    · rw [behind_of_ne hb] at hu ⊢
      rcases eq_or_ne (i + 1) k with rfl | hne
      · exact absurd hnames (h i s' e u rfl hs' he' hu)
      · rw [List.getElem?_insertIdx, if_pos (by omega)]
        exact ⟨u, hu, kept_refl s' u⟩
  next hi =>
    split at hs'
    next heq =>
      rw [if_pos (heq ▸ hk)] at hs'
      cases hs'
      simp [ha] at he'
    next hne =>
      have hb : ∀ n, k ≤ n → seam ≠ some (n + 1) := by
        intro n hn hb
        have := hseam (n + 1) hb
        omega
      obtain ⟨j, rfl⟩ : ∃ j, i = j + 1 := ⟨i - 1, by omega⟩
      refine ⟨j, s', hs', he', L.same_refl s', fun u hu _ => ?_⟩
      rw [behind_of_ne (hb j (by omega))] at hu
      rw [behind_of_ne (hb (j + 1) (by omega)), List.getElem?_insertIdx, if_neg (by omega),
        if_neg (by omega)]
      exact ⟨u, hu, kept_refl s' u⟩

theorem drop {n : Nat} (hseam : ∀ b ∈ seam, b ≤ n) :
    L.Inherits head seam l (seam.map fun _ => 0) (l.drop n) := by
  intro i s' e hs' he'
  rw [List.getElem?_drop] at hs'
  refine ⟨n + i, s', hs', he', L.same_refl s', fun u hu _ => ?_⟩
  have hb : seam ≠ some (n + i + 1) := by
    intro hb
    have := hseam _ hb
    omega
  rw [behind_of_ne hb] at hu
  rw [behind_of_ne (by simp), List.getElem?_drop]
  exact ⟨u, hu, kept_refl s' u⟩

end Inherits

end Linkage

end QuorumDispatch.Lib
