import Mathlib.Data.Bool.AllAny
import QuorumDispatch.Lib.Json

/-!
What every reader of JSON requires of the text of an object: brackets close, quotes close, and
no letter follows a closing quote. A scanner checks that much and no more. By it, the texts of
several objects, each cut off anywhere, never join to the text of another object.
-/

namespace QuorumDispatch.Lib

/-- Where the scanner stands. The depth counts the open brackets within the object. -/
inductive Scan where
  | start
  | inside (depth : Nat) (closed : Bool)
  | quoted (depth : Nat) (escaped : Bool)
  | done
  | dead
deriving DecidableEq, Repr

namespace Scan

def step : Scan → Char → Scan
  | start, c => if c = '\x7b' then inside 0 false else dead
  | inside depth closed, c =>
      if c = '\x7b' ∨ c = '[' then inside (depth + 1) false
      else if c = '\x7d' ∨ c = ']' then
        match depth with
        | 0 => done
        | depth + 1 => inside depth false
      else if c = '"' then quoted depth false
      else if closed && c.isAlpha then dead
      else inside depth false
  | quoted depth escaped, c =>
      if escaped then quoted depth false
      else if c = '\\' then quoted depth true
      else if c = '"' then inside depth true
      else quoted depth false
  | done, c => if isWhitespace c then done else dead
  | dead, _ => dead

def run (s : Scan) (cs : List Char) : Scan := cs.foldl step s

@[simp] theorem run_nil (s : Scan) : s.run [] = s := rfl

@[simp] theorem run_cons (s : Scan) (c : Char) (cs : List Char) :
    s.run (c :: cs) = (s.step c).run cs := rfl

@[simp] theorem run_append (s : Scan) (cs ds : List Char) :
    s.run (cs ++ ds) = (s.run cs).run ds := by
  simp [run]

@[simp] theorem run_dead (cs : List Char) : dead.run cs = dead := by
  induction cs with
  | nil => rfl
  | cons c cs ih => exact ih

def accepts (cs : List Char) : Bool := start.run cs = done

/-- Within the object, below at least `depth` further brackets. -/
def Deep (depth : Nat) : Scan → Prop
  | inside d _ | quoted d _ => depth ≤ d
  | _ => False

/-- The object is open, or the text can not be that of an object any more. -/
def Open (s : Scan) : Prop := s.Deep 0 ∨ s = dead

theorem Deep.mono {m n : Nat} {s : Scan} (h : s.Deep n) (hmn : m ≤ n) : s.Deep m := by
  cases s with
  | inside d closed => exact Nat.le_trans hmn h
  | quoted d escaped => exact Nat.le_trans hmn h
  | start => exact h
  | done => exact h
  | dead => exact h

theorem Open.ne_done {s : Scan} (h : s.Open) : s ≠ done := by
  rintro rfl
  rcases h with h | h
  · exact h
  · cases h

/-! ### Runs above a depth -/

/-- A run from one state to another that never leaves the depth. -/
inductive Runs (depth : Nat) : Scan → List Char → Scan → Prop where
  | nil {s} (here : s.Deep depth) : Runs depth s [] s
  | cons {s c cs t} (here : s.Deep depth) (rest : Runs depth (s.step c) cs t) :
      Runs depth s (c :: cs) t

variable {depth : Nat} {s t u : Scan} {cs ds p : List Char}

theorem Runs.run_eq (h : Runs depth s cs t) : s.run cs = t := by
  induction h with
  | nil here => rfl
  | cons here rest ih => exact ih

theorem Runs.append (h : Runs depth s cs t) (h' : Runs depth t ds u) :
    Runs depth s (cs ++ ds) u := by
  induction h with
  | nil here => exact h'
  | cons here rest ih => exact .cons here (ih h')

theorem Runs.mono {m : Nat} (h : Runs depth s cs t) (hm : m ≤ depth) : Runs m s cs t := by
  induction h with
  | nil here => exact .nil (here.mono hm)
  | cons here rest ih => exact .cons (here.mono hm) ih

theorem Runs.deep_of_prefix (h : Runs depth s cs t) (hp : p <+: cs) : (s.run p).Deep depth := by
  induction h generalizing p with
  | nil here =>
      rw [List.prefix_nil.mp hp]
      exact here
  | cons here rest ih =>
      rcases List.prefix_cons_iff.mp hp with rfl | ⟨q, rfl, hq⟩
      · exact here
      · exact ih hq

theorem Runs.one {c : Char} (here : s.Deep depth) (next : (s.step c).Deep depth) :
    Runs depth s [c] (s.step c) :=
  .cons here (.nil next)

/-! ### The text of a value -/

def Passed (c : Char) : Prop := c ≠ '"' ∧ c ≠ '\\'

theorem runs_passed (h : ∀ c ∈ cs, Passed c) (d : Nat) :
    Runs d (quoted d false) cs (quoted d false) := by
  induction cs with
  | nil => exact .nil (Nat.le_refl d)
  | cons c cs ih =>
      obtain ⟨hquote, hslash⟩ := h c List.mem_cons_self
      refine .cons (Nat.le_refl d) ?_
      have hstep : (quoted d false).step c = quoted d false := by
        simp [step, hquote, hslash]
      rw [hstep]
      exact ih fun b hb => h b (List.mem_cons_of_mem c hb)

theorem runs_escaped (c : Char) (d : Nat) :
    Runs d (quoted d false) ['\\', c] (quoted d false) :=
  .cons (Nat.le_refl d) (.cons (Nat.le_refl d) (.nil (Nat.le_refl d)))

theorem passed_digitChar (n : Nat) (h : n < 16) : Passed (Nat.digitChar n) := by
  have hall : ∀ n < 16, Nat.digitChar n ≠ '"' ∧ Nat.digitChar n ≠ '\\' := by decide
  exact hall n h

theorem runs_escape (c : Char) (d : Nat) :
    Runs d (quoted d false) (Json.escape c) (quoted d false) := by
  unfold Json.escape
  split
  · exact runs_escaped _ d
  · exact runs_escaped _ d
  · exact runs_escaped _ d
  · exact runs_escaped _ d
  · exact runs_escaped _ d
  · next hquote hslash _ _ _ =>
      split_ifs with h8 h12 h32
      · exact runs_escaped _ d
      · exact runs_escaped _ d
      · refine (runs_escaped 'u' d).append (runs_passed ?_ d)
        intro b hb
        simp only [List.mem_cons, List.not_mem_nil, or_false] at hb
        rcases hb with rfl | rfl | rfl | rfl
        · exact ⟨by decide, by decide⟩
        · exact ⟨by decide, by decide⟩
        · exact passed_digitChar _ (by omega)
        · exact passed_digitChar _ (by omega)
      · refine runs_passed ?_ d
        intro b hb
        rw [List.mem_singleton.mp hb]
        exact ⟨hquote, hslash⟩

theorem runs_quote (text : String) (d : Nat) (closed : Bool) :
    Runs d (inside d closed) (Json.quote text) (inside d true) := by
  have hbody : ∀ cs : List Char,
      Runs d (quoted d false) (cs.flatMap Json.escape) (quoted d false) := by
    intro cs
    induction cs with
    | nil => exact .nil (Nat.le_refl d)
    | cons c cs ih =>
        rw [List.flatMap_cons]
        exact (runs_escape c d).append ih
  refine .cons (Nat.le_refl d) ?_
  have hopen : (inside d closed).step '"' = quoted d false := by simp [step]
  rw [hopen]
  exact (hbody text.toList).append (.one (Nat.le_refl d) (Nat.le_refl d))

def Plain (c : Char) : Prop :=
  c ≠ '\x7b' ∧ c ≠ '[' ∧ c ≠ '\x7d' ∧ c ≠ ']' ∧ c ≠ '"'

instance (c : Char) : Decidable (Plain c) := by unfold Plain; infer_instance

theorem runs_plain (h : ∀ c ∈ cs, Plain c) (d : Nat) :
    Runs d (inside d false) cs (inside d false) := by
  induction cs with
  | nil => exact .nil (Nat.le_refl d)
  | cons c cs ih =>
      obtain ⟨h1, h2, h3, h4, h5⟩ := h c List.mem_cons_self
      refine .cons (Nat.le_refl d) ?_
      have hstep : (inside d false).step c = inside d false := by
        simp [step, h1, h2, h3, h4, h5]
      rw [hstep]
      exact ih fun b hb => h b (List.mem_cons_of_mem c hb)

theorem Plain.of_isDigit {c : Char} (h : c.isDigit) : Plain c := by
  refine ⟨?_, ?_, ?_, ?_, ?_⟩ <;> rintro rfl <;> exact absurd h (by decide)

theorem plain_toDigits (n : Nat) : ∀ c ∈ Nat.toDigits 10 n, Plain c :=
  fun _ hc => .of_isDigit (Nat.isDigit_of_mem_toDigits (by decide) (by decide) hc)

theorem runs_bracketed {opening closing : Char}
    (hopen : ∀ d closed, (inside d closed).step opening = inside (d + 1) false)
    (hclose : ∀ d closed, (inside (d + 1) closed).step closing = inside d false)
    {d : Nat} {closed closed' : Bool}
    (h : Runs (d + 1) (inside (d + 1) false) cs (inside (d + 1) closed')) :
    Runs d (inside d closed) (opening :: (cs ++ [closing])) (inside d false) := by
  refine .cons (Nat.le_refl d) ?_
  rw [hopen]
  refine (h.mono (Nat.le_succ d)).append ?_
  have hlast : Runs d (inside (d + 1) closed') [closing] ((inside (d + 1) closed').step closing) :=
    .one (Nat.le_succ d) (by rw [hclose]; exact Nat.le_refl d)
  rwa [hclose] at hlast

end Scan

/-- The numbers with a fraction or an exponent are printed as numbers. -/
inductive Json.Printable : Json → Prop where
  | null : Printable .null
  | bool (b) : Printable (.bool b)
  | num (n) : Printable (.num n)
  | float {text : String} (plain : ∀ c ∈ text.toList, Scan.Plain c) : Printable (.float text)
  | str (text) : Printable (.str text)
  | arr {items : List Json} (all : ∀ j ∈ items, Printable j) : Printable (.arr items)
  | obj {entries : List (String × Json)} (all : ∀ entry ∈ entries, Printable entry.2) :
      Printable (.obj entries)

namespace Scan

def Flat (text : List Char) : Prop :=
  ∀ d, ∃ closed, Runs d (inside d false) text (inside d closed)

theorem runs_separator {c : Char} (hc : c = ',' ∨ c = ':') (d : Nat) (closed : Bool) :
    Runs d (inside d closed) [c] (inside d false) := by
  have hstep : (inside d closed).step c = inside d false := by
    rcases hc with rfl | rfl <;> simp [step]
  have hone := Runs.one (c := c) (s := inside d closed) (Nat.le_refl d)
    (by rw [hstep]; exact Nat.le_refl d)
  rwa [hstep] at hone

theorem flat_nil : Flat [] := fun d => ⟨false, .nil (Nat.le_refl d)⟩

theorem Flat.separated {c : Char} (hc : c = ',' ∨ c = ':') {text rest : List Char}
    (h : Flat text) (hrest : Flat rest) : Flat (text ++ c :: rest) := by
  intro d
  obtain ⟨closed, hruns⟩ := h d
  obtain ⟨closed', hruns'⟩ := hrest d
  refine ⟨closed', ?_⟩
  rw [← List.singleton_append]
  exact hruns.append ((runs_separator hc d closed).append hruns')

theorem flat_quote (text : String) : Flat (Json.quote text) :=
  fun d => ⟨true, runs_quote text d false⟩

theorem flat_plain {text : List Char} (h : ∀ c ∈ text, Plain c) : Flat text :=
  fun d => ⟨false, runs_plain h d⟩

theorem flat_compactItems {items : List Json} (h : ∀ j ∈ items, Flat j.compact) :
    Flat (Json.compactItems items) := by
  induction items with
  | nil => exact flat_nil
  | cons j rest ih =>
      have hj := h j List.mem_cons_self
      cases rest with
      | nil => exact hj
      | cons k rest =>
          exact hj.separated (.inl rfl) (ih fun i hi => h i (List.mem_cons_of_mem j hi))

theorem flat_compactEntries {entries : List (String × Json)}
    (h : ∀ entry ∈ entries, Flat entry.2.compact) : Flat (Json.compactEntries entries) := by
  induction entries with
  | nil => exact flat_nil
  | cons entry rest ih =>
      have hentry := h entry List.mem_cons_self
      cases rest with
      | nil => exact (flat_quote entry.1).separated (.inr rfl) hentry
      | cons next rest =>
          have hrest := ih fun e he => h e (List.mem_cons_of_mem entry he)
          exact (flat_quote entry.1).separated (.inr rfl) (hentry.separated (.inl rfl) hrest)

theorem flat_compact {j : Json} (h : j.Printable) : Flat j.compact := by
  induction h with
  | null => exact flat_plain (List.all_iff_forall_prop.mp (by decide))
  | bool b => cases b <;> exact flat_plain (List.all_iff_forall_prop.mp (by decide))
  | num n =>
      apply flat_plain
      intro c hc
      rw [Json.compact] at hc
      split at hc
      · rcases List.mem_cons.mp hc with rfl | hc
        · decide
        · exact plain_toDigits _ c hc
      · exact plain_toDigits _ c hc
  | float plain => exact flat_plain plain
  | str text => exact flat_quote text
  | arr all ih =>
      intro d
      obtain ⟨closed, hruns⟩ := flat_compactItems ih (d + 1)
      exact ⟨false, runs_bracketed (fun _ _ => by simp [step]) (fun _ _ => by simp [step]) hruns⟩
  | obj all ih =>
      intro d
      obtain ⟨closed, hruns⟩ := flat_compactEntries ih (d + 1)
      exact ⟨false, runs_bracketed (fun _ _ => by simp [step]) (fun _ _ => by simp [step]) hruns⟩

/-! ### Cut texts -/

/-- The text of an object whose first key starts with a letter. -/
structure Bracketed (text : List Char) : Prop where
  parts : ∃ letter rest, letter.isAlpha ∧
    text = '\x7b' :: ('"' :: letter :: rest ++ ['\x7d']) ∧ Flat ('"' :: letter :: rest)

theorem bracketed_compact {key : String} {letter : Char} {cs : List Char}
    (hkey : Json.quote key = '"' :: letter :: cs) (hletter : letter.isAlpha) {j : Json}
    {entries : List (String × Json)} (h : (Json.obj ((key, j) :: entries)).Printable) :
    Bracketed (Json.obj ((key, j) :: entries)).compact := by
  have hflat : Flat (Json.compactEntries ((key, j) :: entries)) := by
    cases h with
    | obj all => exact flat_compactEntries fun entry hentry => flat_compact (all entry hentry)
  have hbody : ∃ rest, Json.compactEntries ((key, j) :: entries) = '"' :: letter :: rest := by
    cases entries with
    | nil => exact ⟨_, by rw [Json.compactEntries, hkey]; rfl⟩
    | cons next rest => exact ⟨_, by rw [Json.compactEntries, hkey]; rfl⟩
  obtain ⟨rest, hrest⟩ := hbody
  rw [hrest] at hflat
  exact ⟨letter, rest, hletter, by rw [Json.compact, hrest], hflat⟩

/-- A text that is cut off is empty, or it is cut off within the brackets, or it is whole. -/
theorem prefix_cases {opening closing : Char} {body p : List Char}
    (h : p <+: opening :: (body ++ [closing])) :
    p = [] ∨ (∃ q, p = opening :: q ∧ q <+: body) ∨ p = opening :: (body ++ [closing]) := by
  rcases List.prefix_cons_iff.mp h with rfl | ⟨q, rfl, hq⟩
  · exact .inl rfl
  · rcases List.prefix_concat_iff.mp hq with rfl | hq
    · exact .inr (.inr rfl)
    · exact .inr (.inl ⟨q, rfl, hq⟩)

variable {text p : List Char} {s : Scan}

theorem Bracketed.scan (h : Bracketed text) (hp : p <+: text) :
    p = [] ∨ (start.run p).Open ∨ p = text := by
  obtain ⟨letter, rest, _, rfl, hflat⟩ := h.parts
  obtain ⟨closed, hruns⟩ := hflat 0
  rcases prefix_cases hp with rfl | ⟨q, rfl, hq⟩ | rfl
  · exact .inl rfl
  · exact .inr (.inl (.inl (hruns.deep_of_prefix hq)))
  · exact .inr (.inr rfl)

theorem Bracketed.run_done (h : Bracketed text) : start.run text = done := by
  obtain ⟨letter, rest, _, rfl, hflat⟩ := h.parts
  obtain ⟨closed, hruns⟩ := hflat 0
  change (inside 0 false).run ('"' :: letter :: rest ++ ['\x7d']) = done
  rw [run_append, hruns.run_eq]
  simp [step]

/-- Between two quotes, the first key of a further text ends the object for good. -/
theorem run_quoted_key (d : Nat) (escaped : Bool) {letter : Char} (hletter : letter.isAlpha)
    (rest : List Char) :
    (quoted d escaped).run ('\x7b' :: '"' :: letter :: rest) = dead := by
  have hkey : (inside d true).step letter = dead := by
    have hbrackets : ∀ c : Char, c.isAlpha = false → letter ≠ c := by
      rintro c hc rfl
      rw [hletter] at hc
      cases hc
    simp [step, hletter, hbrackets '\x7b' (by decide), hbrackets '[' (by decide),
      hbrackets '\x7d' (by decide), hbrackets ']' (by decide), hbrackets '"' (by decide)]
  have hopen : (quoted d escaped).run ['\x7b', '"'] = inside d true := by
    cases escaped <;> simp [step]
  rw [show '\x7b' :: '"' :: letter :: rest = ['\x7b', '"'] ++ letter :: rest from rfl, run_append,
    hopen, run_cons, hkey, run_dead]

theorem Open.run_prefix (h : s.Open) (htext : Bracketed text) (hp : p <+: text) :
    (s.run p).Open := by
  obtain ⟨letter, rest, hletter, rfl, hflat⟩ := htext.parts
  rcases h with hdeep | rfl
  · cases s with
    | inside d closed =>
        obtain ⟨closed', hruns⟩ := hflat (d + 1)
        have hwhole : Runs d (inside d closed) ('\x7b' :: ('"' :: letter :: rest ++ ['\x7d']))
            (inside d false) :=
          runs_bracketed (fun _ _ => by simp [step]) (fun _ _ => by simp [step]) hruns
        exact .inl ((hwhole.deep_of_prefix hp).mono (Nat.zero_le d))
    | quoted d escaped =>
        -- the brace is part of the string, and the quote closes it
        have hletters : p <+: '\x7b' :: '"' :: letter :: (rest ++ ['\x7d']) := hp
        rcases List.prefix_cons_iff.mp hletters with rfl | ⟨q, rfl, hq⟩
        · exact .inl (Nat.zero_le d)
        rcases List.prefix_cons_iff.mp hq with rfl | ⟨r, rfl, hr⟩
        · cases escaped <;> exact .inl (by simp [step, Deep])
        rcases List.prefix_cons_iff.mp hr with rfl | ⟨cut, rfl, _⟩
        · cases escaped <;> exact .inl (by simp [step, Deep])
        · exact .inr (run_quoted_key d escaped hletter cut)
    | start => exact hdeep.elim
    | done => exact hdeep.elim
    | dead => exact hdeep.elim
  · exact .inr (run_dead p)

theorem open_run_done (htext : Bracketed text) (hp : p <+: text) (hne : p ≠ []) :
    (done.run p).Open := by
  obtain ⟨letter, rest, _, rfl, _⟩ := htext.parts
  rcases List.prefix_cons_iff.mp hp with rfl | ⟨q, rfl, _⟩
  · exact (hne rfl).elim
  · exact .inr (run_dead q)

inductive Joined (P : List Char → Prop) : List Char → Prop where
  | nil : Joined P []
  | snoc {joined text p} (front : Joined P joined) (mem : P text) (cut : p <+: text) :
      Joined P (joined ++ p)

variable {P : List Char → Prop} {joined q : List Char}

theorem Joined.scan (hP : ∀ text, P text → Bracketed text) (h : Joined P joined)
    (hq : q <+: joined) : q = [] ∨ (start.run q).Open ∨ P q := by
  induction h generalizing q with
  | nil => exact .inl (List.prefix_nil.mp hq)
  | @snoc joined text p front mem cut ih =>
      rcases List.prefix_or_prefix_of_prefix hq (List.prefix_append joined p) with hq | ⟨r, rfl⟩
      · exact ih hq
      have hcut := ((List.prefix_append_right_inj joined).mp hq).trans cut
      rcases ih (List.prefix_refl joined) with rfl | hopen | hwhole
      · rcases (hP text mem).scan hcut with rfl | hopen | rfl
        · exact .inl rfl
        · exact .inr (.inl hopen)
        · exact .inr (.inr mem)
      · refine .inr (.inl ?_)
        rw [run_append]
        exact hopen.run_prefix (hP text mem) hcut
      · by_cases hne : r = []
        · subst hne
          rw [List.append_nil]
          exact .inr (.inr hwhole)
        · refine .inr (.inl ?_)
          rw [run_append, (hP joined hwhole).run_done]
          exact open_run_done (hP text mem) hcut hne

/-- **The texts of objects that were cut off do not join to another.** Whatever part of what
they join to may be the text of an object is one of them, whole. -/
theorem Joined.mem_of_accepts (hP : ∀ text, P text → Bracketed text) (h : Joined P joined)
    (hq : q <+: joined) (haccepts : accepts q = true) : P q := by
  have hdone : start.run q = done := by simpa [accepts] using haccepts
  rcases h.scan hP hq with rfl | hopen | hwhole
  · cases hdone
  · exact absurd hdone hopen.ne_done
  · exact hwhole

theorem Joined.head?_eq (hP : ∀ text, P text → Bracketed text) (h : Joined P joined)
    (hne : joined ≠ []) : joined.head? = some '\x7b' := by
  induction h with
  | nil => exact (hne rfl).elim
  | @snoc joined text p front mem cut ih =>
      by_cases hjoined : joined = []
      · subst hjoined
        obtain ⟨letter, rest, _, rfl, _⟩ := (hP text mem).parts
        rcases List.prefix_cons_iff.mp cut with rfl | ⟨q, rfl, _⟩
        · exact (hne rfl).elim
        · rfl
      · rw [List.head?_append_of_ne_nil _ hjoined]
        exact ih hjoined

end Scan

end QuorumDispatch.Lib
