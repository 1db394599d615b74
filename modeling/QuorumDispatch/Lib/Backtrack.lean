import Mathlib.Data.List.Infix

/-!
Regular expressions as a backtracking matcher reads them. The ways in which an expression matches at
a place are listed in the order in which the matcher tries them: the first alternative before the
second, one more round of a loop before none; so the match that it finds is the first of the list, at
the first place at which there is one.

A loop over a class of characters is mostly followed by something that begins with none of them. Then
all its ways but the longest fail, and the expression is read without going back.
-/

namespace QuorumDispatch.Lib

structure Cursor where
  before : Option Char
  rest : List Char
  captured : Option (List Char) := none
deriving DecidableEq, Repr

inductive Regex where
  | empty
  /-- One character of a class. -/
  | one (p : Char → Bool)
  | seq (r s : Regex)
  | alt (r s : Regex)
  /-- As often as possible. -/
  | star (r : Regex)
  /-- The capturing group. -/
  | group (r : Regex)
  /-- Between a word character and something else. -/
  | boundary (word : Char → Bool)

namespace Cursor

def next (k : Cursor) (p : Char → Bool) : Option Cursor :=
  match k.rest with
  | [] => none
  | c :: rest => if p c then some { k with before := some c, rest := rest } else none

def upTo (k k' : Cursor) : List Char := k.rest.take (k.rest.length - k'.rest.length)

def skip (k : Cursor) (cs : List Char) : Cursor :=
  { k with before := cs.getLast?.or k.before, rest := k.rest.drop cs.length }

/-- The place behind all the characters of a class that stand here. -/
def skipWhile (k : Cursor) (p : Char → Bool) : Cursor := k.skip (k.rest.takeWhile p)

end Cursor

/-- Rounds of a loop, at most `left`; a round that does not get on is none. -/
def rounds (round : Cursor → List Cursor) : Nat → Cursor → List Cursor
  | 0, k => [k]
  | left + 1, k =>
      ((round k).filter fun k' => k'.rest.length < k.rest.length).flatMap (rounds round left) ++ [k]

namespace Regex

def ways : Regex → Cursor → List Cursor
  | empty, k => [k]
  | one p, k => (k.next p).toList
  | seq r s, k => (r.ways k).flatMap s.ways
  | alt r s, k => r.ways k ++ s.ways k
  | star r, k => rounds r.ways k.rest.length k
  | group r, k => (r.ways k).map fun k' => { k' with captured := some (k.upTo k') }
  | boundary word, k => if k.before.any word != (k.rest.head?.any word) then [k] else []

/-- `+`. -/
def plus (r : Regex) : Regex := seq r (star r)

def text : List Char → Regex
  | [] => empty
  | c :: cs => seq (one (· == c)) (text cs)

def search (r : Regex) (before : Option Char) : List Char → Option Cursor
  | [] => (r.ways ⟨before, [], none⟩).head?
  | c :: cs => (r.ways ⟨before, c :: cs, none⟩).head?.or (search r (some c) cs)

def firstCapture (r : Regex) (cs : List Char) : Option (List Char) :=
  (r.search none cs).bind (·.captured)

end Regex

namespace Cursor

variable {k : Cursor} {p : Char → Bool} {c : Char} {rest : List Char}

theorem skip_cons (h : k.rest = c :: rest) (cs : List Char) :
    k.skip (c :: cs) = Cursor.skip { k with before := some c, rest := rest } cs := by
  simp only [skip, h, List.length_cons, List.drop_succ_cons, List.getLast?_cons]
  cases cs.getLast? <;> rfl

theorem skipWhile_cons (h : k.rest = c :: rest) (hc : p c = true) :
    k.skipWhile p = Cursor.skipWhile { k with before := some c, rest := rest } p := by
  rw [skipWhile, h, List.takeWhile_cons_of_pos hc, skip_cons h]
  rfl

theorem skipWhile_eq_self (h : k.rest.head?.any p = false) : k.skipWhile p = k := by
  rw [skipWhile]
  cases hrest : k.rest with
  | nil => rfl
  | cons c rest =>
      rw [hrest] at h
      rw [List.takeWhile_cons_of_neg (by simpa using h)]
      rfl

theorem rest_skipWhile : (k.skipWhile p).rest = k.rest.dropWhile p := by
  have h : k.rest.takeWhile p ++ k.rest.dropWhile p = k.rest := List.takeWhile_append_dropWhile
  calc k.rest.drop (k.rest.takeWhile p).length
      = (k.rest.takeWhile p ++ k.rest.dropWhile p).drop (k.rest.takeWhile p).length := by rw [h]
    _ = k.rest.dropWhile p := List.drop_left

theorem upTo_skipWhile : k.upTo (k.skipWhile p) = k.rest.takeWhile p := by
  have h : k.rest.takeWhile p ++ k.rest.dropWhile p = k.rest := List.takeWhile_append_dropWhile
  have hlength : k.rest.length - (k.rest.dropWhile p).length = (k.rest.takeWhile p).length := by
    have hsum := congrArg List.length h
    rw [List.length_append] at hsum
    omega
  rw [upTo, rest_skipWhile, hlength]
  calc k.rest.take (k.rest.takeWhile p).length
      = (k.rest.takeWhile p ++ k.rest.dropWhile p).take (k.rest.takeWhile p).length := by rw [h]
    _ = k.rest.takeWhile p := List.take_left

end Cursor

namespace Regex

variable {r s : Regex} {p : Char → Bool} {f : Cursor → List Cursor} {k : Cursor}

/-- The expression has no match in front of a character of the class. -/
def Fails (f : Cursor → List Cursor) (p : Char → Bool) : Prop :=
  ∀ k : Cursor, k.rest.head?.any p = true → f k = []

theorem flatMap_ways_seq : ((seq r s).ways k).flatMap f = (r.ways k).flatMap fun k' => (s.ways k').flatMap f :=
  List.flatMap_assoc

theorem flatMap_ways_alt : ((alt r s).ways k).flatMap f = (r.ways k).flatMap f ++ (s.ways k).flatMap f :=
  List.flatMap_append

theorem ways_one_nil (h : k.rest.head?.any p = false) : (one p).ways k = [] := by
  rw [ways, Cursor.next]
  cases hrest : k.rest with
  | nil => rfl
  | cons c rest =>
      rw [hrest] at h
      simp only [if_neg (show ¬ p c = true by simpa using h)]
      rfl

theorem ways_one_cons {c : Char} {rest : List Char} (hrest : k.rest = c :: rest) (hc : p c = true) :
    (one p).ways k = [{ k with before := some c, rest := rest }] := by
  rw [ways, Cursor.next, hrest]
  simp only [if_pos hc]
  rfl

theorem rounds_nil {round : Cursor → List Cursor} {left : Nat} (h : round k = []) : rounds round left k = [k] := by
  cases left with
  | zero => rfl
  | succ left =>
      rw [rounds, h]
      rfl

theorem flatMap_rounds_succ {round : Cursor → List Cursor} {left : Nat} :
    (rounds round (left + 1) k).flatMap f =
      (round k).flatMap (fun k' => if k'.rest.length < k.rest.length then (rounds round left k').flatMap f else []) ++
        f k := by
  rw [rounds, List.flatMap_append, List.flatMap_singleton]
  congr 1
  induction round k with
  | nil => rfl
  | cons k' ks ih =>
      rw [List.filter_cons, List.flatMap_cons, ← ih]
      by_cases hless : k'.rest.length < k.rest.length
      · rw [if_pos (decide_eq_true hless), if_pos hless, List.flatMap_cons, List.flatMap_append]
      · rw [if_neg (by simpa using hless), if_neg hless, List.nil_append]

theorem rounds_one {left : Nat} {c : Char} {rest : List Char} (hrest : k.rest = c :: rest) (hc : p c = true) :
    rounds (one p).ways (left + 1) k = rounds (one p).ways left { k with before := some c, rest := rest } ++ [k] := by
  have hless : rest.length < k.rest.length := by
    rw [hrest, List.length_cons]
    exact Nat.lt_succ_self _
  rw [rounds, ways_one_cons hrest hc, List.filter_cons, if_pos (decide_eq_true hless)]
  rw [List.filter_nil, List.flatMap_singleton]

/-- **A loop over a class, in front of what fails on it**, has one way that goes on: the longest. -/
theorem flatMap_rounds_one (hf : Fails f p) {left : Nat} (hleft : k.rest.length ≤ left) :
    (rounds (one p).ways left k).flatMap f = f (k.skipWhile p) := by
  induction left generalizing k with
  | zero =>
      have hnil := List.length_eq_zero_iff.mp (Nat.le_zero.mp hleft)
      rw [Cursor.skipWhile_eq_self (by rw [hnil]; rfl)]
      exact List.flatMap_singleton f k
  | succ left ih =>
      cases hhead : k.rest.head?.any p with
      | false =>
          rw [rounds_nil (ways_one_nil hhead), Cursor.skipWhile_eq_self hhead]
          exact List.flatMap_singleton f k
      | true =>
          obtain ⟨c, rest, hrest, hc⟩ : ∃ c rest, k.rest = c :: rest ∧ p c = true := by
            cases hrest : k.rest with
            | nil => rw [hrest] at hhead; cases hhead
            | cons c rest => exact ⟨c, rest, rfl, by rw [hrest] at hhead; simpa using hhead⟩
          rw [hrest, List.length_cons] at hleft
          rw [rounds_one hrest hc, List.flatMap_append, ih (Nat.le_of_succ_le_succ hleft), List.flatMap_singleton,
            hf k hhead, List.append_nil, Cursor.skipWhile_cons hrest hc]

theorem flatMap_ways_star (hf : Fails f p) : ((star (one p)).ways k).flatMap f = f (k.skipWhile p) :=
  flatMap_rounds_one hf (Nat.le_refl _)

theorem flatMap_ways_plus (hf : Fails f p) :
    ((plus (one p)).ways k).flatMap f = if k.rest.head?.any p then f (k.skipWhile p) else [] := by
  rw [plus, flatMap_ways_seq]
  cases hhead : k.rest.head?.any p with
  | false => rw [ways_one_nil hhead]; rfl
  | true =>
      cases hrest : k.rest with
      | nil => rw [hrest] at hhead; cases hhead
      | cons c rest =>
          have hc : p c = true := by rw [hrest] at hhead; simpa using hhead
          rw [ways_one_cons hrest hc, List.flatMap_singleton, flatMap_ways_star hf, Cursor.skipWhile_cons hrest hc]
          rfl

theorem head?_rounds_one {left : Nat} (hleft : k.rest.length ≤ left) :
    (rounds (one p).ways left k).head? = some (k.skipWhile p) := by
  induction left generalizing k with
  | zero =>
      have hnil := List.length_eq_zero_iff.mp (Nat.le_zero.mp hleft)
      rw [Cursor.skipWhile_eq_self (by rw [hnil]; rfl)]
      rfl
  | succ left ih =>
      cases hhead : k.rest.head?.any p with
      | false =>
          rw [rounds_nil (ways_one_nil hhead), Cursor.skipWhile_eq_self hhead]
          rfl
      | true =>
          cases hrest : k.rest with
          | nil => rw [hrest] at hhead; cases hhead
          | cons c rest =>
              have hc : p c = true := by rw [hrest] at hhead; simpa using hhead
              rw [hrest, List.length_cons] at hleft
              rw [rounds_one hrest hc, List.head?_append, ih (Nat.le_of_succ_le_succ hleft),
                Cursor.skipWhile_cons hrest hc, Option.some_or]

theorem head?_ways_plus :
    ((plus (one p)).ways k).head? = if k.rest.head?.any p then some (k.skipWhile p) else none := by
  rw [plus, ways]
  cases hhead : k.rest.head?.any p with
  | false => rw [ways_one_nil hhead]; rfl
  | true =>
      cases hrest : k.rest with
      | nil => rw [hrest] at hhead; cases hhead
      | cons c rest =>
          have hc : p c = true := by rw [hrest] at hhead; simpa using hhead
          rw [ways_one_cons hrest hc, List.flatMap_singleton, ways, head?_rounds_one (Nat.le_refl _),
            Cursor.skipWhile_cons hrest hc]
          rfl

theorem flatMap_ways_text (cs : List Char) :
    ((text cs).ways k).flatMap f = if cs <+: k.rest then f (k.skip cs) else [] := by
  induction cs generalizing k with
  | nil =>
      rw [if_pos List.nil_prefix]
      exact List.flatMap_singleton f k
  | cons c cs ih =>
      rw [text, flatMap_ways_seq]
      cases hrest : k.rest with
      | nil =>
          have hne : ¬ (c :: cs) <+: [] := fun h => List.cons_ne_nil c cs (List.prefix_nil.mp h)
          rw [ways_one_nil (by rw [hrest]; rfl), if_neg hne]
          rfl
      | cons d rest =>
          by_cases hd : d = c
          · subst hd
            rw [ways_one_cons (p := fun x => x == d) hrest (beq_self_eq_true d), List.flatMap_singleton, ih]
            simp only [List.prefix_cons_inj, Cursor.skip_cons hrest]
          · have hne : ¬ (c :: cs) <+: d :: rest := fun h => hd (List.cons_prefix_cons.mp h).1.symm
            rw [ways_one_nil (by rw [hrest]; simpa using hd), if_neg hne]
            rfl

theorem flatMap_ways_word (hf : Fails f p) {cs : List Char} (hcs : ∀ c ∈ cs, p c = true) :
    ((text cs).ways k).flatMap f = if k.rest.takeWhile p = cs then f (k.skipWhile p) else [] := by
  rw [flatMap_ways_text]
  by_cases hprefix : cs <+: k.rest
  · obtain ⟨rest, hrest⟩ := hprefix
    have htake : k.rest.takeWhile p = cs ++ rest.takeWhile p := by
      rw [← hrest, List.takeWhile_append_of_pos hcs]
    rw [if_pos ⟨rest, hrest⟩]
    by_cases hmore : rest.takeWhile p = []
    · rw [hmore, List.append_nil] at htake
      rw [if_pos htake, Cursor.skipWhile, htake]
    · have hne : k.rest.takeWhile p ≠ cs := by
        rw [htake]
        exact fun h => hmore (List.append_right_eq_self.mp h)
      rw [if_neg hne]
      apply hf
      have hdrop : (k.skip cs).rest = rest := by
        change k.rest.drop cs.length = rest
        rw [← hrest, List.drop_left]
      rw [hdrop]
      cases rest with
      | nil => exact absurd rfl hmore
      | cons c rest =>
          by_contra hc
          rw [List.head?_cons, Option.any_some] at hc
          exact hmore (List.takeWhile_cons_of_neg hc)
  · rw [if_neg hprefix, if_neg]
    rintro rfl
    exact hprefix (List.takeWhile_prefix p)

def Captures (r : Regex) : Prop := ∀ k, ∀ k' ∈ r.ways k, k'.captured.isSome = true

theorem captures_group : Captures (group r) := by
  intro k k' hmem
  obtain ⟨k'', -, rfl⟩ := List.mem_map.mp hmem
  rfl

theorem Captures.seq (h : Captures s) : Captures (seq r s) := by
  intro k k' hmem
  obtain ⟨k'', -, hmem'⟩ := List.mem_flatMap.mp hmem
  exact h k'' k' hmem'

theorem Captures.rounds {round : Cursor → List Cursor} (h : Captures s) (left : Nat) (k : Cursor) :
    ∀ k' ∈ (rounds round left k).flatMap s.ways, k'.captured.isSome = true := by
  intro k' hmem
  obtain ⟨k'', -, hmem'⟩ := List.mem_flatMap.mp hmem
  exact h k'' k' hmem'

theorem bind_head?_append {ks ks' : List Cursor} (h : ∀ k ∈ ks, k.captured.isSome = true) :
    (ks ++ ks').head?.bind (·.captured) = (ks.head?.bind (·.captured)).or (ks'.head?.bind (·.captured)) := by
  cases ks with
  | nil => rfl
  | cons k ks =>
      obtain ⟨capture, hcapture⟩ := Option.isSome_iff_exists.mp (h k List.mem_cons_self)
      rw [List.cons_append, List.head?_cons, List.head?_cons, Option.bind_some, hcapture, Option.some_or]

def captureAt (r : Regex) (k : Cursor) : Option (List Char) := (r.ways k).head?.bind (·.captured)

theorem Captures.search_cons (h : Captures r) (before : Option Char) (c : Char) (cs : List Char) :
    (search r before (c :: cs)).bind (·.captured) =
      (captureAt r ⟨before, c :: cs, none⟩).or ((search r (some c) cs).bind (·.captured)) := by
  rw [search, captureAt]
  cases hhead : (r.ways ⟨before, c :: cs, none⟩).head? with
  | none => rfl
  | some k =>
      obtain ⟨capture, hcapture⟩ := Option.isSome_iff_exists.mp (h _ k (List.mem_of_head? hhead))
      rw [Option.some_or, Option.bind_some, hcapture]
      rfl

end Regex

end QuorumDispatch.Lib
